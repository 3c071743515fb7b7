import Templating.Proofs.Eval.Pull
import Templating.Proofs.Tracked.Ledger

/-!
# Who has the items of a source

Iterators that wrap others may share them. Here an advance is accompanied by a record of the
positions of sequences and ranges that were taken: which of them an iterator holds back, since it
looked ahead, which ones were lost when a row could not be completed, and which one was handed to
which iterator. The record makes no difference to the advance.

* `Row`: an item with the positions that it was made of.
* `Custody`: the record.
* `Takes`, `Works`, `TakesEach`: an advance, a step of a cursor, and an advance of each of some
  iterators, with the record before and after it.
* `Takes.pulls`: **an advance with a record is an advance.**
* `Ready.takes`: **every advance can be recorded**, if iterators wrap older ones only.
-/

namespace Templating

open Eval

/-- The position of an item in a sequence or a range. -/
abbrev Token := Handle × Nat

/-- An item, and the positions of sequences and ranges that it was made of. -/
structure Row where
  value : Value
  tokens : List Token

/-- What is made of an item. -/
def Row.map (f : Value → Value) (r : Row) : Row := ⟨f r.value, r.tokens⟩

/-- The positions in an item, if there is one. -/
def Row.tokens? (r : Option Row) : List Token := (r.map Row.tokens).getD []

/-- A record of the positions that were taken. -/
structure Custody where
  /-- How many items of a sequence or a range were taken. -/
  taken : Handle → Nat
  /-- What an iterator holds back. -/
  held : Handle → List Token
  /-- What was lost, and the iterator that could not complete its row. -/
  dropped : List (Handle × Token)
  /-- What an iterator got from another one, in the order in which it got it. -/
  received : Handle → Handle → List Token

namespace Custody

/-- Nothing was taken. -/
def empty : Custody := ⟨fun _ => 0, fun _ => [], [], fun _ _ => []⟩

variable (C : Custody)

/-- The next item of a source is taken. -/
def take (h : Handle) : Custody := { C with taken := Function.update C.taken h (C.taken h + 1) }

/-- An iterator got something from another one. -/
def receive (h inner : Handle) (tokens : List Token) : Custody :=
  { C with
    received := Function.update C.received h
      (Function.update (C.received h) inner (C.received h inner ++ tokens)) }

/-- An iterator got something from another one and holds it back. -/
def hold (h inner : Handle) (tokens : List Token) : Custody :=
  { C.receive h inner tokens with held := Function.update C.held h tokens }

/-- An iterator could not complete a row. -/
def drop (h : Handle) (tokens : List Token) : Custody :=
  { C with dropped := C.dropped ++ tokens.map (h, ·) }

end Custody

/-- A sequence or a range. -/
def Cursor.IsSource : Cursor → Prop
  | .items _ | .range .. => True
  | _ => False

/-- The next item of a sequence or a range, and what is left then. -/
def Cursor.uncons : Cursor → Option (Value × Cursor)
  | .items (v :: rest) => some (v, .items rest)
  | .range next step (remaining + 1) =>
    some (.int next, .range (addSaturating next step) step remaining)
  | _ => none

/-- An iterator is being advanced. -/
abbrev seize (s : Array Cell) (h : Handle) (cursor : Cursor) : Array Cell :=
  s.setIfInBounds h ⟨cursor, true⟩

/-- An iterator was advanced. -/
abbrev release (s : Array Cell) (h : Handle) (cursor : Cursor) : Array Cell :=
  s.setIfInBounds h ⟨cursor, false⟩

mutual

/-- An advance of an iterator, with the record before and after it. -/
inductive Takes : Custody → Array Cell → Handle → Option Row → Custody → Array Cell → Prop where
  | missing {C : Custody} {s : Array Cell} {h : Handle} : s[h]? = none → Takes C s h none C s
  | step {C C' : Custody} {s s' : Array Cell} {h : Handle} {cursor cursor' : Cursor}
      {r : Option Row} : s[h]? = some ⟨cursor, false⟩ →
      Works C (seize s h cursor) h cursor r cursor' C' s' → Takes C s h r C' (release s' h cursor')

/-- A step of the cursor of an iterator, with the record before and after it. -/
inductive Works : Custody → Array Cell → Handle → Cursor → Option Row → Cursor → Custody →
    Array Cell → Prop where
  | source {C : Custody} {s : Array Cell} {h : Handle} {cursor cursor' : Cursor} {v : Value} :
      cursor.uncons = some (v, cursor') →
      Works C s h cursor (some ⟨v, [(h, C.taken h)]⟩) cursor' (C.take h) s
  | source_ended {C : Custody} {s : Array Cell} {h : Handle} {cursor : Cursor} :
      cursor.IsSource → cursor.uncons = none → Works C s h cursor none cursor C s
  | enumerate {C C' : Custody} {s s' : Array Cell} {h inner : Handle} {index : Int64} {r : Row} :
      Takes C s inner (some r) C' s' →
      Works C s h (.enumerate inner index) (some (r.map fun v => .list [.int index, v]))
        (.enumerate inner (addSaturating index 1)) (C'.receive h inner r.tokens) s'
  | enumerate_ended {C C' : Custody} {s s' : Array Cell} {h inner : Handle} {index : Int64} :
      Takes C s inner none C' s' →
      Works C s h (.enumerate inner index) none (.enumerate inner index) C' s'
  /-- No item is taken in advance. -/
  | marked {C C' : Custody} {s s' : Array Cell} {h inner : Handle} {markers : Markers}
      {index : Int64} {first : Bool} {r : Row} : markers.last = false →
      Takes C s inner (some r) C' s' →
      Works C s h (.flagged inner markers index first .unknown)
        (some (r.map (markers.row index first true)))
        (.flagged inner markers (markers.following index) false .unknown)
        (C'.receive h inner r.tokens) s'
  /-- The first item is taken, and the next one is taken in advance. -/
  | marked_first {C C₁ C₂ : Custody} {s s₁ s₂ : Array Cell} {h inner : Handle} {markers : Markers}
      {index : Int64} {first : Bool} {r : Row} {next : Option Row} : markers.last = true →
      Takes C s inner (some r) C₁ s₁ →
      Takes (C₁.receive h inner r.tokens) s₁ inner next C₂ s₂ →
      Works C s h (.flagged inner markers index first .unknown)
        (some (r.map (markers.row index first next.isNone)))
        (.flagged inner markers (markers.following index) false
          (markers.lookahead (next.map Row.value)))
        (C₂.hold h inner (Row.tokens? next)) s₂
  /-- The item that is held back is handed out, and the next one is taken in advance. -/
  | marked_held {C C' : Custody} {s s' : Array Cell} {h inner : Handle} {markers : Markers}
      {index : Int64} {first : Bool} {v : Value} {next : Option Row} : markers.last = true →
      Takes C s inner next C' s' →
      Works C s h (.flagged inner markers index first (.pending v))
        (some ⟨markers.row index first next.isNone v, C'.held h⟩)
        (.flagged inner markers (markers.following index) false
          (markers.lookahead (next.map Row.value)))
        (C'.hold h inner (Row.tokens? next)) s'
  | marked_none {C C' : Custody} {s s' : Array Cell} {h inner : Handle} {markers : Markers}
      {index : Int64} {first : Bool} : Takes C s inner none C' s' →
      Works C s h (.flagged inner markers index first .unknown) none
        (.flagged inner markers index first .ended) C' s'
  | marked_ended {C : Custody} {s : Array Cell} {h inner : Handle} {markers : Markers}
      {index : Int64} {first : Bool} :
      Works C s h (.flagged inner markers index first .ended) none
        (.flagged inner markers index first .ended) C s
  | zip {C C' : Custody} {s s' : Array Cell} {h inner : Handle} {inners : List Handle}
      {rows : List Row} : TakesEach h C s (inner :: inners) true rows C' s' →
      Works C s h (.zip (inner :: inners))
        (some ⟨.list (rows.map Row.value), rows.flatMap Row.tokens⟩) (.zip (inner :: inners)) C' s'
  /-- A row that cannot be completed is lost. -/
  | zip_ended {C C' : Custody} {s s' : Array Cell} {h inner : Handle} {inners : List Handle}
      {rows : List Row} : TakesEach h C s (inner :: inners) false rows C' s' →
      Works C s h (.zip (inner :: inners)) none (.zip (inner :: inners))
        (C'.drop h (rows.flatMap Row.tokens)) s'
  | zip_nil {C : Custody} {s : Array Cell} {h : Handle} : Works C s h (.zip []) none (.zip []) C s

/-- Advances of some iterators for another one, up to one that has come to its end. It is told
whether all of them had an item. -/
inductive TakesEach : Handle → Custody → Array Cell → List Handle → Bool → List Row → Custody →
    Array Cell → Prop where
  | nil {z : Handle} {C : Custody} {s : Array Cell} : TakesEach z C s [] true [] C s
  | ended {z inner : Handle} {inners : List Handle} {C C' : Custody} {s s' : Array Cell} :
      Takes C s inner none C' s' → TakesEach z C s (inner :: inners) false [] C' s'
  | cons {z inner : Handle} {inners : List Handle} {C C₁ C' : Custody} {s s₁ s' : Array Cell}
      {r : Row} {rows : List Row} {complete : Bool} : Takes C s inner (some r) C₁ s₁ →
      TakesEach z (C₁.receive z inner r.tokens) s₁ inners complete rows C' s' →
      TakesEach z C s (inner :: inners) complete (r :: rows) C' s'

end

variable {C C' : Custody} {s s' s'' : Array Cell} {h i z : Handle} {hs : List Handle}
  {cursor cursor' : Cursor} {v : Value} {r : Option Row} {rows : List Row} {complete : Bool}

/-! ## Records make no difference -/

theorem Pulls.missing (hcell : s[h]? = none) : Pulls s h none s :=
  fun _ => Halts.advance (Halts.runs.advanceCell_none hcell rfl)

theorem Steps.source (h : cursor.uncons = some (v, cursor')) :
    Steps s cursor cursor' (some v) s := by
  unfold Cursor.uncons at h
  split at h
  · cases h
    exact .items_cons
  · cases h
    exact .range_succ
  · cases h

theorem Steps.source_ended (hsource : cursor.IsSource) (h : cursor.uncons = none) :
    Steps s cursor cursor none s := by
  cases cursor with
  | items rest =>
    cases rest with
    | nil => exact .items_nil
    | cons v rest => cases h
  | range next step remaining =>
    cases remaining with
    | zero => exact .range_zero
    | succ remaining => cases h
  | _ => exact hsource.elim

theorem Steps.marked_row {inner : Handle} {markers : Markers} {index : Int64} {first : Bool}
    {next : Option Row} (hlast : markers.last = true)
    (hpull : Pulls s inner (next.map Row.value) s') :
    Steps s (.flagged inner markers index first (.pending v))
      (.flagged inner markers (markers.following index) false
        (markers.lookahead (next.map Row.value)))
      (some (markers.row index first next.isNone v)) s' := by
  have hnone : (next.map Row.value).isNone = next.isNone := Option.isNone_map
  rw [← hnone]
  exact .marked (by rwa [if_pos hlast])

mutual

/-- **An advance with a record is an advance.** -/
theorem Takes.pulls {C C' : Custody} {s s' : Array Cell} {h : Handle} {r : Option Row} :
    Takes C s h r C' s' → Pulls s h (r.map Row.value) s'
  | .missing hcell => .missing hcell
  | .step hcell hworks => .of_steps hcell hworks.steps

theorem Works.steps {C C' : Custody} {s s' : Array Cell} {h : Handle} {cursor cursor' : Cursor}
    {r : Option Row} : Works C s h cursor r cursor' C' s' →
      Steps s cursor cursor' (r.map Row.value) s'
  | .source h => .source h
  | .source_ended hsource h => .source_ended hsource h
  | .enumerate htakes => .enumerate htakes.pulls
  | .enumerate_ended htakes => .enumerate_ended htakes.pulls
  | .marked hlast htakes => by
    refine .marked_unknown htakes.pulls ?_
    rw [← Markers.lookahead_of_not_last hlast none]
    exact .marked (by simp [hlast])
  | .marked_first hlast htakes hnext => .marked_unknown htakes.pulls (.marked_row hlast hnext.pulls)
  | .marked_held hlast hnext => .marked_row hlast hnext.pulls
  | .marked_none htakes => .marked_unknown_ended htakes.pulls
  | .marked_ended => .marked_ended
  | .zip heach => .zip heach.pulls
  | .zip_ended heach => .zip heach.pulls
  | .zip_nil => .zip_nil

theorem TakesEach.pulls {z : Handle} {C C' : Custody} {s s' : Array Cell} {hs : List Handle}
    {complete : Bool} {rows : List Row} : TakesEach z C s hs complete rows C' s' →
      PullsEach s hs (if complete then some (rows.map Row.value) else none) s'
  | .nil => .nil
  | .ended htakes => .ended htakes.pulls
  | .cons htakes heach => by
    have hcons := PullsEach.cons htakes.pulls heach.pulls
    rwa [apply_ite (Option.map _)] at hcons

end

/-! ## Iterators go on -/

/-- What a position has in common with all later ones. -/
def Cursor.skeleton : Cursor → Cursor
  | .items _ | .range .. => .items []
  | .enumerate inner _ => .enumerate inner 0
  | .flagged inner markers .. => .flagged inner markers 0 true .unknown
  | cursor => cursor

/-- There are no more items, whatever the iterators inside have. -/
def Cursor.IsOver : Cursor → Prop
  | .items [] | .range _ _ 0 | .flagged _ _ _ _ .ended | .zip [] => True
  | _ => False

/-- Only an iterator that marks the last item looks ahead. -/
def Cursor.IsSound : Cursor → Prop
  | .flagged _ markers _ _ (.pending _) => markers.last
  | _ => True

/-- A position of an iterator, and a later one. -/
structure Cursor.Later (cursor cursor' : Cursor) : Prop where
  skeleton : cursor'.skeleton = cursor.skeleton
  isOver : cursor.IsOver → cursor'.IsOver
  isSound : cursor.IsSound → cursor'.IsSound

theorem Cursor.Later.refl (cursor : Cursor) : cursor.Later cursor := ⟨rfl, id, id⟩

theorem Cursor.Later.trans {c c' c'' : Cursor} (h : c.Later c') (h' : c'.Later c'') :
    c.Later c'' :=
  ⟨h'.skeleton.trans h.skeleton, fun hover => h'.isOver (h.isOver hover),
    fun hsound => h'.isSound (h.isSound hsound)⟩

theorem Cursor.sources_skeleton (cursor : Cursor) : cursor.skeleton.sources = cursor.sources := by
  cases cursor <;> rfl

theorem Cursor.Later.sources {c c' : Cursor} (h : c.Later c') : c'.sources = c.sources := by
  rw [← c'.sources_skeleton, h.skeleton, c.sources_skeleton]

theorem Cursor.isBuiltin_skeleton (cursor : Cursor) :
    cursor.skeleton.IsBuiltin ↔ cursor.IsBuiltin := by
  cases cursor <;> rfl

theorem Cursor.isSource_skeleton (cursor : Cursor) :
    cursor.skeleton.IsSource ↔ cursor.IsSource := by
  cases cursor <;> rfl

theorem Cursor.isSound_lookahead {markers : Markers} (hlast : markers.last = true)
    (inner : Handle) (index : Int64) (first : Bool) (next : Option Value) :
    (Cursor.flagged inner markers index first (markers.lookahead next)).IsSound := by
  cases next with
  | none =>
    rw [Markers.lookahead_none hlast]
    trivial
  | some v =>
    rw [Markers.lookahead_some hlast]
    exact hlast

theorem Cursor.Later.of_uncons {c c' : Cursor} (h : c.uncons = some (v, c')) : c.Later c' := by
  unfold Cursor.uncons at h
  split at h
  · cases h
    exact ⟨rfl, False.elim, id⟩
  · cases h
    exact ⟨rfl, False.elim, id⟩
  · cases h

/-- A store, and a later one with the same iterators. -/
structure Onward (s s' : Array Cell) : Prop where
  size : s'.size = s.size
  cells : ∀ (i : Handle) (cursor : Cursor) (busy : Bool), s[i]? = some ⟨cursor, busy⟩ →
    ∃ cursor' busy', s'[i]? = some ⟨cursor', busy'⟩ ∧ cursor.Later cursor'

namespace Onward

theorem refl (s : Array Cell) : Onward s s := ⟨rfl, fun _ _ _ h => ⟨_, _, h, .refl _⟩⟩

theorem trans (h : Onward s s') (h' : Onward s' s'') : Onward s s'' := by
  refine ⟨h'.size.trans h.size, fun i cursor busy hcell => ?_⟩
  obtain ⟨cursor', busy', hcell', hlater⟩ := h.cells i cursor busy hcell
  obtain ⟨cursor'', busy'', hcell'', hlater'⟩ := h'.cells i cursor' busy' hcell'
  exact ⟨cursor'', busy'', hcell'', hlater.trans hlater'⟩

theorem set {busy busy' : Bool} (hcell : s[h]? = some ⟨cursor, busy⟩)
    (hlater : cursor.Later cursor') : Onward s (s.setIfInBounds h ⟨cursor', busy'⟩) := by
  refine ⟨Array.size_setIfInBounds, fun i c b hc => ?_⟩
  by_cases hi : h = i
  · subst hi
    obtain rfl : cursor = c := by
      rw [hcell] at hc
      cases hc
      rfl
    have hlt := (Array.getElem?_eq_some_iff.1 hcell).1
    exact ⟨_, _, Array.getElem?_setIfInBounds_self_of_lt hlt, hlater⟩
  · exact ⟨c, b, (Array.getElem?_setIfInBounds_ne hi).trans hc, .refl c⟩

end Onward

/-- The same iterators are being advanced, and nothing happens to them. -/
def SameBusy (s s' : Array Cell) : Prop :=
  ∀ (i : Handle) (cursor : Cursor) (busy : Bool), s[i]? = some ⟨cursor, busy⟩ →
    ∃ cursor', s'[i]? = some ⟨cursor', busy⟩ ∧ (busy = true → cursor' = cursor)

theorem SameBusy.refl (s : Array Cell) : SameBusy s s := fun _ _ _ h => ⟨_, h, fun _ => rfl⟩

theorem SameBusy.trans (h : SameBusy s s') (h' : SameBusy s' s'') : SameBusy s s'' := by
  intro i cursor busy hcell
  obtain ⟨cursor', hcell', heq⟩ := h i cursor busy hcell
  obtain ⟨cursor'', hcell'', heq'⟩ := h' i cursor' busy hcell'
  exact ⟨cursor'', hcell'', fun hb => (heq' hb).trans (heq hb)⟩

/-- While an iterator is being advanced, nothing happens to it. -/
theorem SameBusy.busy (h : SameBusy s s') (hcell : s[i]? = some ⟨cursor, true⟩) :
    s'[i]? = some ⟨cursor, true⟩ := by
  obtain ⟨cursor', hcell', heq⟩ := h i cursor true hcell
  rwa [heq rfl] at hcell'

theorem getElem?_seize (hcell : s[h]? = some ⟨cursor, false⟩) :
    (seize s h cursor)[h]? = some ⟨cursor, true⟩ :=
  Array.getElem?_setIfInBounds_self_of_lt (Array.getElem?_eq_some_iff.1 hcell).1

/-- After an advance no iterator is busy that was not busy before. -/
theorem SameBusy.of_step (hcell : s[h]? = some ⟨cursor, false⟩)
    (hstep : SameBusy (seize s h cursor) s') (cursor' : Cursor) :
    SameBusy s (release s' h cursor') := by
  intro i c b hc
  by_cases hi : h = i
  · subst hi
    obtain rfl : false = b := by
      rw [hcell] at hc
      cases hc
      rfl
    have hlt := (Array.getElem?_eq_some_iff.1 (hstep.busy (getElem?_seize hcell))).1
    exact ⟨cursor', Array.getElem?_setIfInBounds_self_of_lt hlt, nofun⟩
  · obtain ⟨c', hc', heq⟩ := hstep i c b ((Array.getElem?_setIfInBounds_ne hi).trans hc)
    exact ⟨c', (Array.getElem?_setIfInBounds_ne hi).trans hc', heq⟩

mutual

theorem Takes.sameBusy {C C' : Custody} {s s' : Array Cell} {h : Handle} {r : Option Row} :
    Takes C s h r C' s' → SameBusy s s'
  | .missing _ => .refl _
  | .step hcell hworks => .of_step hcell hworks.sameBusy _

theorem Works.sameBusy {C C' : Custody} {s s' : Array Cell} {h : Handle} {cursor cursor' : Cursor}
    {r : Option Row} : Works C s h cursor r cursor' C' s' → SameBusy s s'
  | .source _ | .source_ended .. | .marked_ended | .zip_nil => .refl _
  | .enumerate htakes | .enumerate_ended htakes | .marked _ htakes | .marked_held _ htakes
  | .marked_none htakes => htakes.sameBusy
  | .marked_first _ htakes hnext => htakes.sameBusy.trans hnext.sameBusy
  | .zip heach | .zip_ended heach => heach.sameBusy

theorem TakesEach.sameBusy {z : Handle} {C C' : Custody} {s s' : Array Cell} {hs : List Handle}
    {complete : Bool} {rows : List Row} : TakesEach z C s hs complete rows C' s' → SameBusy s s'
  | .nil => .refl _
  | .ended htakes => htakes.sameBusy
  | .cons htakes heach => htakes.sameBusy.trans heach.sameBusy

end

/-- The cursor of an iterator that is being advanced goes on. -/
theorem Works.later (hw : Works C s h cursor r cursor' C' s') : cursor.Later cursor' := by
  cases hw with
  | source h => exact .of_uncons h
  | source_ended => exact .refl _
  | enumerate => exact ⟨rfl, False.elim, id⟩
  | enumerate_ended => exact .refl _
  | marked => exact ⟨rfl, False.elim, id⟩
  | marked_first hlast | marked_held hlast =>
    exact ⟨rfl, False.elim, fun _ => Cursor.isSound_lookahead hlast ..⟩
  | marked_none => exact ⟨rfl, False.elim, fun _ => trivial⟩
  | marked_ended => exact .refl _
  | zip => exact .refl _
  | zip_ended => exact .refl _
  | zip_nil => exact .refl _

theorem Onward.of_step (hcell : s[h]? = some ⟨cursor, false⟩)
    (hstep : Onward (seize s h cursor) s') (hbusy : SameBusy (seize s h cursor) s')
    (hlater : cursor.Later cursor') : Onward s (release s' h cursor') :=
  ((Onward.set hcell (.refl _)).trans hstep).trans (.set (hbusy.busy (getElem?_seize hcell)) hlater)

mutual

theorem Takes.onward {C C' : Custody} {s s' : Array Cell} {h : Handle} {r : Option Row} :
    Takes C s h r C' s' → Onward s s'
  | .missing _ => .refl _
  | .step hcell hworks => .of_step hcell hworks.onward hworks.sameBusy hworks.later

theorem Works.onward {C C' : Custody} {s s' : Array Cell} {h : Handle} {cursor cursor' : Cursor}
    {r : Option Row} : Works C s h cursor r cursor' C' s' → Onward s s'
  | .source _ | .source_ended .. | .marked_ended | .zip_nil => .refl _
  | .enumerate htakes | .enumerate_ended htakes | .marked _ htakes | .marked_held _ htakes
  | .marked_none htakes => htakes.onward
  | .marked_first _ htakes hnext => htakes.onward.trans hnext.onward
  | .zip heach | .zip_ended heach => heach.onward

theorem TakesEach.onward {z : Handle} {C C' : Custody} {s s' : Array Cell} {hs : List Handle}
    {complete : Bool} {rows : List Row} : TakesEach z C s hs complete rows C' s' → Onward s s'
  | .nil => .refl _
  | .ended htakes => htakes.onward
  | .cons htakes heach => htakes.onward.trans heach.onward

end

/-! ## Every advance can be recorded -/

/-- The iterators from a place on up to another one are not being advanced, and wrap older ones from
that place on only. -/
def Ready (base n : Nat) (s : Array Cell) : Prop :=
  ∀ i, base ≤ i → i < n → ∃ cursor, s[i]? = some ⟨cursor, false⟩ ∧ cursor.IsBuiltin ∧
    cursor.IsSound ∧ ∀ j ∈ cursor.sources, base ≤ j ∧ j < i

namespace Ready

variable {base n n' : Nat}

theorem mono (hs : Ready base n s) (hn : n' ≤ n) : Ready base n' s :=
  fun i hi hlt => hs i hi (hlt.trans_le hn)

theorem seize (hs : Ready base h s) (cursor : Cursor) : Ready base h (seize s h cursor) := by
  intro i hi hlt
  obtain ⟨c, hcell, hc⟩ := hs i hi hlt
  exact ⟨c, (Array.getElem?_setIfInBounds_ne hlt.ne').trans hcell, hc⟩

theorem after (hs : Ready base n s) (honward : Onward s s') (hbusy : SameBusy s s') :
    Ready base n s' := by
  intro i hi hlt
  obtain ⟨c, hcell, hbuiltin, hsound, hsources⟩ := hs i hi hlt
  obtain ⟨c', hcell', -⟩ := hbusy i c false hcell
  obtain ⟨c'', b, hcell'', hlater⟩ := honward.cells i c false hcell
  obtain ⟨rfl, rfl⟩ : c' = c'' ∧ false = b := by
    rw [hcell'] at hcell''
    cases hcell''
    exact ⟨rfl, rfl⟩
  refine ⟨c', hcell', ?_, hlater.isSound hsound, ?_⟩
  · rw [← Cursor.isBuiltin_skeleton, hlater.skeleton, Cursor.isBuiltin_skeleton]
    exact hbuiltin
  · rwa [hlater.sources]

/-- Advances of some iterators can be recorded, if those of older ones can be. -/
theorem takesEach {inners : List Handle} (hs : Ready base n s)
    (hinners : ∀ j ∈ inners, base ≤ j ∧ j < n)
    (htakes : ∀ j, base ≤ j → j < n → ∀ C s, Ready base n s → ∃ r C' s', Takes C s j r C' s')
    (z : Handle) (C : Custody) :
    ∃ complete rows C' s', TakesEach z C s inners complete rows C' s' := by
  induction inners generalizing s C with
  | nil => exact ⟨_, _, _, _, .nil⟩
  | cons inner inners ih =>
    obtain ⟨hinner, hinners⟩ := List.forall_mem_cons.1 hinners
    obtain ⟨r, C₁, s₁, hfirst⟩ := htakes inner hinner.1 hinner.2 C s hs
    cases r with
    | none => exact ⟨_, _, _, _, .ended hfirst⟩
    | some r =>
      obtain ⟨complete, rows, C', s', heach⟩ := ih (hs.after hfirst.onward hfirst.sameBusy) hinners
        (C₁.receive z inner r.tokens)
      exact ⟨complete, _, C', s', .cons hfirst heach⟩

/-- A step of a cursor can be recorded, if the advances of older iterators can be. -/
theorem works (hs : Ready base h s) (hbuiltin : cursor.IsBuiltin) (hsound : cursor.IsSound)
    (hsources : ∀ j ∈ cursor.sources, base ≤ j ∧ j < h)
    (htakes : ∀ j, base ≤ j → j < h → ∀ C s, Ready base h s → ∃ r C' s', Takes C s j r C' s')
    (C : Custody) : ∃ r cursor' C' s', Works C s h cursor r cursor' C' s' := by
  cases cursor with
  | items rest =>
    cases rest with
    | nil => exact ⟨_, _, _, _, .source_ended trivial rfl⟩
    | cons v rest => exact ⟨_, _, _, _, .source rfl⟩
  | range next step remaining =>
    cases remaining with
    | zero => exact ⟨_, _, _, _, .source_ended trivial rfl⟩
    | succ remaining => exact ⟨_, _, _, _, .source rfl⟩
  | enumerate inner index =>
    obtain ⟨hle, hlt⟩ := hsources inner (List.mem_singleton_self inner)
    obtain ⟨r, C', s', hinner⟩ := htakes inner hle hlt C s hs
    cases r with
    | none => exact ⟨_, _, _, _, .enumerate_ended hinner⟩
    | some r => exact ⟨_, _, _, _, .enumerate hinner⟩
  | flagged inner markers index first next =>
    obtain ⟨hle, hlt⟩ := hsources inner (List.mem_singleton_self inner)
    cases next with
    | unknown =>
      obtain ⟨r, C₁, s₁, hinner⟩ := htakes inner hle hlt C s hs
      cases r with
      | none => exact ⟨_, _, _, _, .marked_none hinner⟩
      | some r =>
        cases hlast : markers.last with
        | false => exact ⟨_, _, _, _, .marked hlast hinner⟩
        | true =>
          -- whether the item is the last one shows in the next item, which is taken as well
          obtain ⟨next, C₂, s₂, hnext⟩ := htakes inner hle hlt (C₁.receive h inner r.tokens) s₁
            (hs.after hinner.onward hinner.sameBusy)
          exact ⟨_, _, _, _, .marked_first hlast hinner hnext⟩
    | pending v =>
      obtain ⟨next, C', s', hnext⟩ := htakes inner hle hlt C s hs
      exact ⟨_, _, _, _, .marked_held hsound hnext⟩
    | ended => exact ⟨_, _, _, _, .marked_ended⟩
  | zip inners =>
    cases inners with
    | nil => exact ⟨_, _, _, _, .zip_nil⟩
    | cons inner inners =>
      obtain ⟨complete, rows, C', s', heach⟩ := hs.takesEach hsources htakes h C
      cases complete with
      | false => exact ⟨_, _, _, _, .zip_ended heach⟩
      | true => exact ⟨_, _, _, _, .zip heach⟩
  | _ => exact hbuiltin.elim

/-- **Every advance can be recorded**, if iterators wrap older ones only. -/
theorem takes (hs : Ready base (h + 1) s) (hh : base ≤ h) (C : Custody) :
    ∃ r C' s', Takes C s h r C' s' := by
  induction h using Nat.strong_induction_on generalizing s C with
  | h h ih =>
    obtain ⟨cursor, hcell, hbuiltin, hsound, hsources⟩ := hs h hh h.lt_succ_self
    obtain ⟨r, cursor', C', s', hworks⟩ :=
      ((hs.mono h.le_succ).seize cursor).works hbuiltin hsound hsources
        (fun j hle hlt C s hs => ih j hlt (hs.mono hlt) hle C) C
    exact ⟨r, C', _, .step hcell hworks⟩

end Ready

end Templating
