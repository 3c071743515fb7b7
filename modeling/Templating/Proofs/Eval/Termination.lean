import Templating.Proofs.Eval.Rank
import Templating.Proofs.Eval.Session

/-!
# Every evaluation ends

* `Termination.step`, `Termination.generate`: **steps of iterators**, which take items from others,
  or run code for them.
* `Termination.settles`: **every evaluation and every advance ends**, by an induction on the work
  that is owed.
* `Session.Runs.inBooks`: a session keeps the books.
* `every_run_ends`: **every step of every session ends**, and with all large budgets in the same
  way.
-/

namespace Templating

open Carries (handles)

open Eval

namespace Termination

/-! ## Steps of iterators -/

/-- Where an iterator stands after a step. It has fewer items left if it has given one. -/
structure Stepped (L : Ledger) (cursor : Cursor) (L' : Ledger)
    (p : Cursor × Except EvalError (Option Value)) : Prop where
  own : p.1.IsOwn
  known : ∀ i ∈ handles p.1, i ∈ L'.known
  sources : p.1.sources = cursor.sources
  bound : p.1.bound L'.left ≤ cursor.bound L.left
  lower : ∀ v, p.2 = .ok (some v) → p.1.bound L'.left < cursor.bound L.left
  result : ∀ item, p.2 = .ok item → ∀ i ∈ handles item, i ∈ L'.known
  code : ∀ g, p.1 = .generator g →
    ∃ g', cursor = .generator g' ∧ g.source = g'.source ∧ g.rank = g'.rank

section

variable {L L' : Ledger} {h : Handle} {cursor : Cursor} {frame : Frame} {levels : Nat}

/-- An iterator that stays where it is gives no item. -/
theorem Stepped.stay (hcovers : L.Covers h cursor) (hle : L ≤ L')
    {r : Except EvalError (Option Value)} (hr : ∀ item, r = .ok item → item = none) :
    Stepped L cursor L' (cursor, r) where
  own := hcovers.own
  known i hi := hle.known (hcovers.known i hi)
  sources := rfl
  bound := Cursor.bound_mono fun i hi => hle.left i (hcovers.known i (cursor.sources_subset hi))
  lower v hv := nomatch hr _ hv
  result item hitem i hi := by
    obtain rfl := hr item hitem
    cases hi
  code g hg := ⟨g, hg, rfl, rfl⟩

/-- An iterator that is at its end gives no item. -/
theorem Stepped.ended (hcovers : L.Covers h cursor) (hle : L ≤ L') :
    Stepped L cursor L' (cursor, .ok none) :=
  .stay hcovers hle fun _ hitem => (Except.ok.inj hitem).symm

/-- An iterator without code that gives an item has fewer left. -/
theorem Stepped.gives {cursor' : Cursor} {item : Value} (hbuiltin : cursor'.IsBuiltin)
    (hsources : cursor'.sources = cursor.sources) (hknown : ∀ i ∈ handles cursor', i ∈ L'.known)
    (hlower : cursor'.bound L'.left < cursor.bound L.left)
    (hitem : ∀ i ∈ handles item, i ∈ L'.known) :
    Stepped L cursor L' (cursor', .ok (some item)) where
  own := hbuiltin.isOwn
  known := hknown
  sources := hsources
  bound := hlower.le
  lower _ _ := hlower
  result := by
    rintro _ ⟨⟩
    rwa [handles_some]
  code := by
    rintro g rfl
    exact hbuiltin.elim

/-- The end of a step of a flagged iterator, whatever is known about the next item. -/
theorem Stepped.flagged {inner : Handle} {markers : Markers} {index : Int64} {first : Bool}
    {next : Lookahead} (hsources : cursor.sources = [inner]) (hinner : inner ∈ L'.known)
    (hnext : ∀ i ∈ handles next, i ∈ L'.known)
    (hbound : (Cursor.flagged inner markers index first next).bound L'.left ≤ cursor.bound L.left)
    {r : Except EvalError (Option Value)}
    (hlower : ∀ v, r = .ok (some v) →
      (Cursor.flagged inner markers index first next).bound L'.left < cursor.bound L.left)
    (hresult : ∀ item, r = .ok item → ∀ i ∈ handles item, i ∈ L'.known) :
    Stepped L cursor L' (.flagged inner markers index first next, r) where
  own := trivial
  known := List.forall_mem_cons.2 ⟨hinner, hnext⟩
  sources := hsources.symm
  bound := hbound
  lower := hlower
  result := hresult
  code _ hg := nomatch hg

variable (hadvance : ∀ {L' : Ledger} {i : Handle}, L ≤ L' → i ∈ L'.known →
  L'.height i < L.height h → (logic (·.Reduces L.owed) levels).Leads Halts (fun _ => (· = frame)) L'
    (Gives L' i) fun ev => ev.advance i)

include hadvance

/-- One item of each of some iterators. -/
theorem row {L' : Ledger} (hle : L ≤ L') {inners : List Handle}
    (hinners : ∀ i ∈ inners, i ∈ L'.known ∧ L'.height i < L.height h) :
    (logic (·.Reduces L.owed) levels).Leads Halts (fun _ => (· = frame)) L'
      (fun L'' items => (∀ i ∈ handles items, i ∈ L''.known) ∧
        ∀ inner ∈ inners.head?, items.isSome → L''.left inner < L'.left inner)
      fun ev => ev.row inners := by
  induction inners generalizing L' with
  | nil => exact .pure Halts.runs ⟨by simp [handles], by simp⟩
  | cons inner inners ih =>
    obtain ⟨⟨hinner, hheight⟩, hrest⟩ := List.forall_mem_cons.1 hinners
    refine .bind Halts.runs (hadvance hle hinner hheight) fun L₁ hL₁ item hgives => ?_
    cases item with
    | none => exact .pure Halts.runs ⟨by simp [handles], by simp⟩
    | some v =>
      have hrest' : ∀ i ∈ inners, i ∈ L₁.known ∧ L₁.height i < L.height h := fun i hi =>
        ⟨hL₁.known (hrest i hi).1, (hL₁.height i (hrest i hi).1).trans_lt (hrest i hi).2⟩
      refine .bind Halts.runs (ih (hle.trans hL₁) hrest') fun L₂ hL₂ items hitems =>
        .pure Halts.runs ⟨?_, ?_⟩
      · have hv : ∀ i ∈ handles v, i ∈ L₂.known :=
          fun i hi => hL₂.known (hgives.1 i (by rwa [handles_some]))
        -- what the row holds was handed out by this iterator or by a later one
        cases items with
        | none => simp [handles]
        | some items =>
          have hitems : ∀ i ∈ handles (some items), i ∈ L₂.known := hitems.1
          rw [handles_some] at hitems
          change ∀ i ∈ handles (some (v :: items)), i ∈ L₂.known
          rw [handles_some]
          exact List.forall_mem_append.2 ⟨hv, hitems⟩
      · rintro _ ⟨⟩ -
        exact (hL₂.left inner (hL₁.known hinner)).trans_lt (hgives.2 v rfl).1

/-- The next item of a flagged iterator is at hand, or the iterator has come to its end. -/
theorem stepFlagged {L' : Ledger} (hle : L ≤ L') {inner : Handle}
    (markers : Markers) (index : Int64)
    (first : Bool) {current : Option Value} (hsources : cursor.sources = [inner])
    (hinner : inner ∈ L'.known) (hheight : L'.height inner < L.height h)
    (hcurrent : ∀ i ∈ handles current, i ∈ L'.known)
    (hlower : ∀ v ∈ current, L'.left inner < cursor.bound L.left) :
    (logic (·.Reduces L.owed) levels).Leads Halts (fun _ => (· = frame)) L' (Stepped L cursor)
      fun ev => ev.stepFlagged inner markers index first current := by
  cases current with
  | none =>
    exact .pure Halts.runs (.flagged hsources hinner (by simp [handles]) (Nat.zero_le _)
      (fun _ hv => nomatch hv) (by rintro _ ⟨⟩ i hi; cases hi))
  | some item =>
    have hlower : L'.left inner < cursor.bound L.left := hlower item rfl
    rw [handles_some] at hcurrent
    -- the item behind its markers
    have hrow {L₁ : Ledger} (hL₁ : L' ≤ L₁) (last : Bool) (row : Option Value)
        (h : (.ok (some (markers.row index first last item)) : Except EvalError (Option Value)) =
          .ok row)
        (i : Handle) (hi : i ∈ handles row) : i ∈ L₁.known := by
      cases h
      rw [handles_some] at hi
      exact hL₁.known (hcurrent i ((markers.natural_row index first last).handles_subset item hi))
    unfold Evaluator.stepFlagged
    dsimp only
    cases markers.last with
    | false =>
      refine .pure Halts.runs (.flagged hsources hinner (by simp [handles]) ?_ (fun _ _ => ?_)
        (hrow le_rfl true))
      · exact hlower.le
      · exact hlower
    | true =>
      refine .bind Halts.runs (.attempt Halts.runs (hadvance hle hinner hheight))
        fun L₁ hL₁ r hr => ?_
      have hinner' := hL₁.known hinner
      have hlower' : L₁.left inner < cursor.bound L.left := (hL₁.left inner hinner).trans_lt hlower
      cases r with
      | error e =>
        refine .pure Halts.runs (.flagged hsources hinner' (by simp [handles]) ?_ (fun _ _ => ?_)
          (fun _ h => nomatch h))
        · exact hlower'.le
        · exact hlower'
      | ok next =>
        cases next with
        | none =>
          exact .pure Halts.runs (.flagged hsources hinner' (by simp [handles]) (Nat.zero_le _)
            (fun _ _ => (Nat.zero_le _).trans_lt hlower) (hrow hL₁ true))
        | some next =>
          -- the next item has been taken already and is counted
          obtain ⟨hknown, hpaid⟩ : Gives L' inner L₁ (some next) := hr
          have hcounted : L₁.left inner + 1 < cursor.bound L.left :=
            (Nat.succ_le_of_lt (hpaid next rfl).1).trans_lt hlower
          rw [handles_some] at hknown
          refine .pure Halts.runs (.flagged hsources hinner' hknown ?_ (fun _ _ => ?_)
            (hrow hL₁ false))
          · exact hcounted.le
          · exact hcounted

/-- A step of an enumeration takes an item from its source, and gives it with its number. -/
theorem step_enumerate {inner : Handle} {index : Int64}
    (hcovers : L.Covers h (.enumerate inner index)) :
    (logic (·.Reduces L.owed) levels).Leads Halts (fun _ => (· = frame)) L
      (Stepped L (.enumerate inner index)) fun ev => ev.step (.enumerate inner index) := by
  have hinner : inner ∈ L.known := hcovers.known inner List.mem_cons_self
  have hheight : L.height inner < L.height h := hcovers.height inner List.mem_cons_self
  refine .bind Halts.runs (.attempt Halts.runs (hadvance le_rfl hinner hheight))
    fun L' hle r hr => ?_
  cases r with
  | error e => exact .pure Halts.runs (.stay hcovers hle fun _ h => nomatch h)
  | ok item =>
    cases item with
    | none => exact .pure Halts.runs (.ended hcovers hle)
    | some item =>
      obtain ⟨hknown, hpaid⟩ : Gives L inner L' (some item) := hr
      have hlower : L'.left inner < L.left inner := (hpaid item rfl).1
      have hnatural : Natural fun v => Value.list [.int index, v] := fun _ _ _ => rfl
      rw [handles_some] at hknown
      exact .pure Halts.runs (.gives trivial rfl (fun i hi => hle.known (hcovers.known i hi)) hlower
        fun i hi => hknown i (hnatural.handles_subset item hi))

/-- A step of a zip takes an item from each of its sources. The first of them limits the items. -/
theorem step_zip {inners : List Handle} (hcovers : L.Covers h (.zip inners)) :
    (logic (·.Reduces L.owed) levels).Leads Halts (fun _ => (· = frame)) L
      (Stepped L (.zip inners)) fun ev => ev.step (.zip inners) := by
  cases inners with
  | nil => exact .pure Halts.runs (.ended hcovers le_rfl)
  | cons inner inners =>
    have hinners : ∀ i ∈ inner :: inners, i ∈ L.known ∧ L.height i < L.height h := fun i hi =>
      ⟨hcovers.known i hi, hcovers.height i hi⟩
    refine .bind Halts.runs (.attempt Halts.runs (row hadvance le_rfl hinners))
      fun L' hle r hr => .pure Halts.runs ?_
    cases r with
    | error e => exact .stay hcovers hle fun _ h => nomatch h
    | ok items =>
      obtain ⟨hknown, hpaid⟩ := hr
      cases items with
      | none => exact .ended hcovers hle
      | some items =>
        have hlower : L'.left inner < L.left inner := hpaid inner rfl rfl
        have hnatural : Natural Value.list := fun _ _ vs =>
          congrArg Value.list (Value.renameAll_eq _ vs).symm
        rw [handles_some] at hknown
        exact .gives trivial rfl (fun i hi => hle.known (hcovers.known i hi)) hlower
          fun i hi => hknown i (hnatural.handles_subset items hi)

/-- **A step of an iterator without code.** It takes items from iterators of lower heights. -/
theorem step (hcovers : L.Covers h cursor) (hsimple : cursor.IsSimple) :
    (logic (·.Reduces L.owed) levels).Leads Halts (fun _ => (· = frame)) L (Stepped L cursor)
      fun ev => ev.step cursor := by
  cases cursor with
  | items rest =>
    cases rest with
    | nil => exact .pure Halts.runs (.ended hcovers le_rfl)
    | cons item rest =>
      obtain ⟨hitem, hrest⟩ := List.forall_mem_append.1 hcovers.known
      exact .pure Halts.runs (.gives trivial rfl hrest (Nat.lt_succ_self _) hitem)
  | range next step remaining =>
    cases remaining with
    | zero => exact .pure Halts.runs (.ended hcovers le_rfl)
    | succ remaining =>
      exact .pure Halts.runs (.gives trivial rfl (fun _ hi => nomatch hi) (Nat.lt_succ_self _)
        fun _ hi => nomatch hi)
  | enumerate inner index => exact step_enumerate hadvance hcovers
  | flagged inner markers index first next =>
    obtain ⟨hinner, hnext⟩ := List.forall_mem_cons.1 hcovers.known
    have hheight : L.height inner < L.height h := hcovers.height inner List.mem_cons_self
    cases next with
    | unknown =>
      refine .bind Halts.runs (.attempt Halts.runs (hadvance le_rfl hinner hheight))
        fun L' hle r hr => ?_
      cases r with
      | error e => exact .pure Halts.runs (.stay hcovers hle fun _ h => nomatch h)
      | ok current =>
        obtain ⟨hknown, hpaid⟩ : Gives L inner L' current := hr
        exact stepFlagged hadvance hle markers index first rfl (hle.known hinner)
          ((hle.height inner hinner).trans_lt hheight) hknown fun v hv => (hpaid v hv).1
    | pending item =>
      have hcurrent : ∀ i ∈ handles (some item), i ∈ L.known := by
        rw [handles_some]
        exact hnext
      -- the item read ahead counts as one that is left
      exact stepFlagged hadvance le_rfl markers index first rfl hinner hheight hcurrent
        fun _ _ => Nat.lt_succ_self _
    | ended => exact .pure Halts.runs (.ended hcovers le_rfl)
  | zip inners => exact step_zip hadvance hcovers
  | generator g => exact hsimple.elim
  | supplied rest failure => exact hcovers.own.elim
  | relay inner => exact hcovers.own.elim

end

/-- **The next item of a generator expression.** Each item of the source pays for a run of the code,
and the source has fewer items left for each. -/
theorem generate {L : Ledger} {h : Handle} {g : Generator}
    (ih : ∀ w' height, w'.IsDershowitzMannaLT L.owed → Settles w' height)
    (hcovers : L.Covers h (.generator g)) (hh : h ∈ L.known)
    (hadvance : ∀ {L' : Ledger} {i : Handle}, L ≤ L' → i ∈ L'.known → L'.height i < L.height h →
      ∀ frame, (logic (·.Reduces L.owed) (g.frame.maxDepth - g.frame.depth)).Leads Halts
        (fun _ => (· = frame)) L' (Gives L' i) fun ev => ev.advance i) :
    (logic (·.Reduces L.owed) (g.frame.maxDepth - g.frame.depth)).Leads Halts
      (logic (·.Reduces L.owed) (g.frame.maxDepth - g.frame.depth)).Inside L
      (fun L' item => (∀ i ∈ handles item, i ∈ L'.known) ∧
        ∀ v ∈ item, L'.left g.source < L.left g.source)
      fun ev => ev.generate g := by
  have hsource : g.source ∈ L.known := hcovers.known _ List.mem_cons_self
  have hheight : L.height g.source < L.height h := hcovers.height _ List.mem_cons_self
  -- what is known of the item that was found, and of an item of the source
  let Found (L' : Ledger) (item : Option Value) : Prop := L ≤ L' ∧
    (∀ i ∈ handles item, i ∈ L'.known) ∧ ∀ v ∈ item, L'.left g.source < L.left g.source
  let Taken (L' : Ledger) (v : Value) : Prop := (∀ i ∈ handles v, i ∈ L'.known) ∧
    L'.left g.source < L.left g.source ∧ (L'.owed + {g.rank}).Reduces L.owed
  have hmono {L₁ L₂ : Ledger} {item : Option Value} (hle : L₁ ≤ L₂) (hfound : Found L₁ item) :
      Found L₂ item := by
    obtain ⟨hL, hknown, hlower⟩ := hfound
    exact ⟨hL.trans hle, fun i hi => hle.known (hknown i hi), fun v hv =>
      (hle.left _ (hL.known hsource)).trans_lt (hlower v hv)⟩
  have hleft (L₁ : Ledger) (hL₁ : L ≤ L₁) (L₂ : Ledger) (hL₂ : L₁ ≤ L₂) :
      L₂.left g.source ≤ L₁.left g.source :=
    hL₂.left _ (hL₁.known hsource)
  suffices hfold : (logic (·.Reduces L.owed) (g.frame.maxDepth - g.frame.depth)).Leads Halts
      (logic (·.Reduces L.owed) (g.frame.maxDepth - g.frame.depth)).Inside L Found
      fun ev => ev.fold g.source none fun _ v => ev.generateRound g v from
    hfold.mono Halts.runs fun _ _ _ hfound => hfound.2
  refine StoreLogic.Leads.fold_halts (Q := Found) (K := Taken) hleft hmono
    ⟨le_rfl, by simp [handles], by simp⟩ (fun L₁ hL₁ => ?_) fun L₁ hL₁ _ v _ htaken => ?_
  · refine of_bounds fun hbounds => ?_
    have hlower : L₁.height g.source < L.height h := (hL₁.height _ hsource).trans_lt hheight
    refine (StoreLogic.Leads.inside_of_frame_eq Halts.runs
      (hadvance hL₁ (hL₁.known hsource) hlower)).mono Halts.runs fun L₂ hL₂ item hgives v hv => ?_
    obtain ⟨hknown, hpaid⟩ := hgives
    obtain ⟨hlt, hwork⟩ := hpaid v hv
    obtain rfl := Option.mem_def.1 hv
    rw [handles_some] at hknown
    have hcode : L₁.code h = some (g.source, g.rank) := (hL₁.code h hh).trans (hcovers.code g rfl)
    exact ⟨⟨hknown, hlt.trans_le (hL₁.left _ hsource),
      (hwork h (hL₁.known hh) g.rank hcode).trans hbounds⟩, hlt⟩
  · obtain ⟨hv, hlt, hpaid⟩ := htaken
    have hround := StoreLogic.Leads.generateRound Halts.runs (w := L₁) (v := v)
      (tracks_of_adds ih hpaid _) hv
      fun node hnode L' => eval_of_adds ih hpaid (g.rank_lt hnode) L'
    refine (of_bounded hround (.refl ..) fun _ hadds => hadds.reduces hpaid).mono Halts.runs ?_
    rintro L₂ hL₂ walk (rfl | ⟨item, rfl, hitem⟩)
    · exact ⟨hL₁.trans hL₂, by simp [handles], by simp⟩
    · refine ⟨hL₁.trans hL₂, ?_, fun _ _ => (hleft L₁ hL₁ L₂ hL₂).trans_lt hlt⟩
      rw [handles_some]
      exact hitem

/-! ## The induction -/

section

variable {w : Work} {L : Ledger} {h : Handle}
  (ih : ∀ w' height, w'.IsDershowitzMannaLT w → Settles w' height)
  (ihHeight : ∀ height < L.height h, Settles w height)

include ih ihHeight

/-- A step of an iterator ends. A generator expression runs in its frame. -/
theorem steps {cursor : Cursor} (hw : L.owed = w) (hcovers : L.Covers h cursor) (hh : h ∈ L.known)
    (frame : Frame) (levels : Nat) :
    (logic (·.Reduces w) levels).Leads Halts (fun _ => (· = frame)) L (Stepped L cursor)
      fun ev => ev.step cursor := by
  subst hw
  have hadvance {L' : Ledger} {i : Handle} (_ : L ≤ L') (hi : i ∈ L'.known)
      (hlower : L'.height i < L.height h) (frame : Frame) (levels : Nat) :
      (logic (·.Reduces L.owed) levels).Leads Halts (fun _ => (· = frame)) L' (Gives L' i)
        fun ev => ev.advance i := by
    -- either no work was done so far, and the heights go down, or less is owed
    refine of_bounds fun hbounds => ?_
    have hsettles : Settles L'.owed (L'.height i) := by
      obtain heq | hlt := hbounds
      · rw [heq]
        exact ihHeight _ hlower
      · exact ih _ _ hlt
    exact of_bounded (hsettles.advance rfl rfl hi frame levels) (.refl _)
      fun _ hv => hv.trans hbounds
  cases cursor with
  | generator g =>
    -- the code runs in the frame of the iterator, at the depth where it was written
    intro m hholds hframe
    have hinside : (logic (·.Reduces L.owed) (g.frame.maxDepth - g.frame.depth)).Inside L g.frame :=
      ⟨fun i hi => hcovers.known i (List.mem_cons_of_mem _ hi), rfl⟩
    have hgen := generate ih hcovers hh (fun hle hi hlower frame => hadvance hle hi hlower frame _)
      { m with frame := g.frame, output := #[] } hholds hinside
    have hstepped {L' : Ledger} {frame : Frame} (hle : L ≤ L')
        (hinside' : (logic (·.Reduces L.owed) (g.frame.maxDepth - g.frame.depth)).Inside L' frame)
        {r : Except EvalError (Option Value)}
        (hlower : ∀ v, r = .ok (some v) → L'.left g.source < L.left g.source)
        (hresult : ∀ item, r = .ok item → ∀ i ∈ handles item, i ∈ L'.known) :
        Stepped L (.generator g) L' (.generator { g with frame }, r) := by
      have hsource : g.source ∈ L.known := hcovers.known _ List.mem_cons_self
      refine ⟨trivial, List.forall_mem_cons.2 ⟨hle.known hsource, hinside'.1⟩, rfl,
        hle.left _ hsource, hlower, hresult, ?_⟩
      rintro _ ⟨⟩
      exact ⟨g, rfl, rfl, congrArg (fun levels => toLex (levels, _)) hinside'.2⟩
    refine Halts.runs.stepGenerator hgen ?_ ?_
    · rintro item m' ⟨L', hreached⟩
      obtain ⟨hknown, hlower⟩ := hreached.returns
      refine ⟨L', hreached.follows, hreached.holds, hframe,
        hstepped hreached.le hreached.inside ?_ ?_⟩
      · rintro v ⟨⟩
        exact hlower v rfl
      · rintro _ ⟨⟩
        exact hknown
    · rintro e m' ⟨L', hreached⟩
      exact ⟨L', hreached.follows, hreached.holds, hframe,
        hstepped hreached.le hreached.inside (fun _ h => nomatch h) fun _ h => nomatch h⟩
  | _ => exact step (fun hle hi hlower => hadvance hle hi hlower frame levels) hcovers trivial

/-- **An iterator ends** if iterators of lower heights and code that owes less work do. -/
theorem advanceCell (hw : L.owed = w) (hh : h ∈ L.known) (frame : Frame) (levels : Nat) :
    (logic (·.Reduces w) levels).Leads Halts (fun _ => (· = frame)) L (Gives L h)
      fun ev => ev.advanceCell h := by
  intro m hholds hframe
  obtain ⟨hbalanced, hbounds⟩ := hholds
  obtain ⟨⟨cursor, busy⟩, hcell, hcovers⟩ := hbalanced h hh
  have hcovers : L.Covers h cursor := hcovers
  cases busy with
  | true =>
    exact Halts.runs.advanceCell_busy hcell ⟨L, .refl L _, ⟨hbalanced, hbounds⟩, hframe, trivial⟩
  | false =>
    have hstep := steps ih ihHeight hw hcovers hh frame levels
      { m with store := m.store.setIfInBounds h ⟨cursor, true⟩ }
      ⟨hbalanced.mark hcell, hbounds⟩ hframe
    refine StoreLogic.Leads.advanceCell Halts.runs hcell hstep ?_
    rintro L' s c r hfollows ⟨hbalanced', hbounds'⟩ hstepped
    obtain ⟨hspent, hleft, hbalanced'', hfollows'⟩ := hbalanced.leave hh hcell hfollows hbalanced'
      hstepped.own hstepped.known hstepped.sources hstepped.bound hstepped.code
    -- what the iterator has left is written down to its new bound
    have hwritten : (L'.spend h (c.bound L'.left)).owed.Reduces w :=
      (Work.Reduces.of_le (Ledger.owed_spend_le hspent)).trans hbounds'
    refine ⟨_, hfollows', ⟨hbalanced'', hwritten⟩, ?_⟩
    cases r with
    | error e => trivial
    | ok item =>
      refine ⟨hstepped.result item rfl, fun v hv => ?_⟩
      obtain rfl := Option.mem_def.1 hv
      -- an item is paid for by the difference, and so is a run of code that waits for it
      have hlower : c.bound L'.left < L.left h := (hstepped.lower v rfl).trans_le hcovers.bound
      refine ⟨Ledger.spend_left_self.trans_lt hlower, fun i hi r hcode => ?_⟩
      have hcode' : L'.code i = some (h, r) := (hfollows.le.code i hi).trans hcode
      rw [hw]
      refine (Work.Reduces.of_le ?_).trans hbounds'
      exact Ledger.owed_spend_add_le (hleft ▸ hlower) (hfollows.le.known hi) hcode'

end

/-- **Every evaluation and every advance ends.** The induction is on the work that is owed, and on
the heights of iterators while no work is done. -/
theorem settles (w : Work) (height : Nat) : Settles w height := by
  have hwf : WellFounded (Multiset.IsDershowitzMannaLT : Work → Work → Prop) :=
    Multiset.wellFounded_isDershowitzMannaLT
  induction w using hwf.induction generalizing height with
  | _ w ih =>
    have ih (w' : Work) (height : Nat) (hlt : w'.IsDershowitzMannaLT w) : Settles w' height :=
      ih w' hlt height
    induction height using Nat.strong_induction_on with
    | _ height ihHeight =>
      constructor
      · rintro L h hw rfl hh frame levels m hholds hframe
        exact (advanceCell ih ihHeight hw hh frame levels m hholds hframe).advance
      · intro L levels node hw m hholds hframe
        exact (evalNode ih hw m hholds hframe).eval

end Termination

/-! ## Sessions -/

namespace Session

/-- There are books on all iterators at hand. -/
def InBooks (s : Session) (L : Ledger) : Prop :=
  Balanced L s.machine.store ∧ (∀ h ∈ handles s.machine.frame, h ∈ L.known) ∧
    ∀ h ∈ s.obtained, h ∈ L.known

variable {s t : Session} {L : Ledger} {step : Step}

theorem InBooks.mem_of_has (hs : s.InBooks L) {h : Handle} (hh : s.Has h) : h ∈ L.known :=
  hh.elim (hs.2.2 h) (hs.2.1 h)

/-- A step ends and keeps the books. It is code of a rank above those of all nodes. -/
theorem InBooks.halts (hs : s.InBooks L) (hstep : s.Allows step) :
    Halts (fun ev => step.run ev) s.machine fun r => ∃ L', L ≤ L' ∧
      Balanced L' (Outcome.machine r).store ∧
      (∀ h ∈ handles (Outcome.machine r).frame, h ∈ L'.known) ∧
      ∀ obtained m, r = .ok obtained m → ∀ h ∈ obtained, h ∈ L'.known := by
  let levels := s.machine.frame.maxDepth - s.machine.frame.depth
  let r : Rank := toLex (levels + 1, 0)
  have hlt (node : Node) : node.rank levels < r := by
    simp [Node.rank, r, Prod.Lex.toLex_lt_toLex]
  have ih (w : Work) (height : Nat) (_ : w.IsDershowitzMannaLT (L.owed + {r})) :
      Termination.Settles w height :=
    Termination.settles w height
  have hr : (L.owed + {r}).Reduces (L.owed + {r}) := .refl _
  have hleads := Step.leads Halts.runs step (w := L)
    (fun node => Termination.eval_of_adds ih hr (hlt node) L)
    (fun block => Termination.exec_of_adds ih hr block (fun node _ => hlt node) L)
    (by
      rintro h rfl
      refine (StoreLogic.Leads.inside_of_frame_eq Halts.runs
        (Termination.advance_of_adds ih hr levels (hs.mem_of_has hstep))).mono Halts.runs ?_
      exact fun _ _ _ hgives => hgives.1)
    fun _ _ => trivial
  refine Halts.runs.mono (hleads s.machine ⟨hs.1, .refl ..⟩ ⟨hs.2.1, rfl⟩) ?_
  rintro _ ⟨L', h⟩
  refine ⟨L', h.le, h.holds.1, h.inside.1, ?_⟩
  rintro obtained m rfl
  exact h.returns

/-- **What a session preserves**: there are books on all iterators at hand. -/
theorem Runs.inBooks (hrun : Runs s t) (hs : ∃ L, s.InBooks L) : ∃ L, t.InBooks L := by
  induction hrun with
  | refl => exact hs
  | @ok t step budget hs m _ hstep hok ih =>
    obtain ⟨L, hL⟩ := ih
    obtain ⟨n, r, heq, -, L', hle, hbalanced, hframe, hobtained⟩ := hL.halts hstep
    obtain rfl : r = .ok hs m := (Step.run_eq heq (by rw [hok]; trivial)).symm.trans hok
    exact ⟨L', hbalanced, hframe, List.forall_mem_append.2
      ⟨hobtained _ _ rfl, fun h hh => hle.known (hL.2.2 h hh)⟩⟩
  | @failed t step budget e m _ hstep hfailed ih =>
    obtain ⟨L, hL⟩ := ih
    obtain ⟨n, r, heq, -, L', hle, hbalanced, hframe, -⟩ := hL.halts hstep
    obtain rfl : r = .error (.failed e) m :=
      (Step.run_eq heq (by rw [hfailed]; trivial)).symm.trans hfailed
    exact ⟨L', hbalanced, hframe, fun h hh => hle.known (hL.2.2 h hh)⟩

end Session

/-- The iterators that the variables refer to get no items from outside. -/
def Machine.IsSourced (m : Machine) : Prop := ∀ h, m.Reaches h → Sourced m.store h

theorem Machine.IsSourced.inBooks {m : Machine} (hm : m.IsSourced) :
    ∃ L, Session.InBooks ⟨m, []⟩ L := by
  obtain ⟨L, hbalanced, hknown⟩ := exists_balanced (w := {h | m.Reaches h}) hm fun h hh i hi =>
    Machine.Reaches.refers hh hi
  exact ⟨L, hbalanced, fun h hh => (hknown h).2 (.of_mem hh), by simp⟩

/-- **Every evaluation ends.** In every session that begins with variables whose iterators get no
items from outside, every step has one outcome, with a value or with an error: all budgets that are
large enough lead to it, and any budget that is not exhausted does. -/
theorem every_run_ends (m : Machine) (hm : m.IsSourced) (s : Session)
    (hrun : Session.Runs ⟨m, []⟩ s) (step : Session.Step) (hstep : s.Allows step) :
    ∃ r, Outcome.Ended r ∧ ∃ n, ∀ budget,
      (n ≤ budget → step.run (.within budget) s.machine = r) ∧
      (Outcome.Ended (step.run (.within budget) s.machine) →
        step.run (.within budget) s.machine = r) := by
  obtain ⟨L, hL⟩ := hrun.inBooks hm.inBooks
  obtain ⟨n, r, heq, hended, -⟩ := hL.halts hstep
  exact ⟨r, hended, n, fun budget => ⟨heq budget, Session.Step.run_eq heq⟩⟩

/-- A template loops over `(x for x in it)`, where `it` is a shared iterator, and renders itself, if
it is a variable of its own. -/
theorem every_run_ends_generator :
    let spot : Location := .ofText "" .empty
    let source : Node :=
      ⟨0, spot, .genExpr ⟨1, spot, .var "x"⟩ ⟨.name "x", ⟨2, spot, .var "it"⟩, none⟩⟩
    let loop : Node := ⟨3, spot, .forLoop (.name "y") source
      ⟨none, [⟨4, spot, .render ⟨5, spot, .callMethKeywords "render" ⟨6, spot, .var "t"⟩
        [.named "it" ⟨7, spot, .var "it"⟩, .named "t" ⟨8, spot, .var "t"⟩]⟩⟩]⟩⟩
    let t : Template := ⟨9, none, "", none, "", "", ⟨none, [loop]⟩⟩
    let m : Machine := {
      Machine.start 10 0 .first (.ofVars [("it", .iterator 0), ("t", .template t)] 2) with
      store := #[⟨.items [.int 7, .int 8, .int 9], false⟩] }
    m.IsSourced ∧ Session.Runs ⟨m, []⟩ ⟨m, []⟩ ∧ Session.Allows ⟨m, []⟩ (.render t) ∧
      ∃ r, Outcome.Ended r ∧ ∃ n, ∀ budget,
        (n ≤ budget → (Session.Step.render t).run (.within budget) m = r) ∧
        (Outcome.Ended ((Session.Step.render t).run (.within budget) m) →
          (Session.Step.render t).run (.within budget) m = r) := by
  intro spot source loop t m
  have hreaches (h : Handle) (hh : m.Reaches h) : h = 0 := by
    obtain ⟨v, hv, hreaches⟩ := hh
    obtain rfl : v = 0 := List.mem_singleton.1 hv
    rcases Relation.ReflTransGen.cases_head hreaches with h | ⟨i, ⟨cell, hcell, hi⟩, -⟩
    · exact h.symm
    · cases hcell
      cases hi
  have hm : m.IsSourced := by
    intro h hh
    obtain rfl := hreaches h hh
    have hcell : m.store[0]? = some ⟨.items [.int 7, .int 8, .int 9], false⟩ := rfl
    exact .intro hcell trivial fun _ h => nomatch h
  exact ⟨hm, .refl, trivial, every_run_ends m hm ⟨m, []⟩ .refl (.render t) trivial⟩

end Templating
