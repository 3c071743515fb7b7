import Mathlib.Data.List.Sort
import Templating.Eval.Run
import Templating.Proofs.Eval.Outcome
import Templating.Proofs.Value.Slice

/-!
# Spans cut source text by character

A slice is cut out between two offsets in bytes, of which the second is searched behind the first.

* `Span.slice_split`: the cut takes the characters between two positions, and both offsets are
  between characters.
* `Span.toList_slice`: **these are the characters at the positions of the span.**
* `Span.slice_append`, `Span.slice_congr`: spans that meet, and positions behind the end.
* `Span.Partition`, `Span.Partition.join_slices`: **spans that share out the positions of a text in
  order share out the text.**
* `spans_cut_by_character`: all of it, and literal text renders the source that its spans share out.
-/

namespace Templating

open Eval Text

namespace Span

variable {s s' : Span} {spans : List Span} {text : String}

/-! ## Cuts -/

/-- What stands between two offsets of a text. -/
theorem extract_eq {before middle after : String} {p q : text.Pos}
    (htext : text = before ++ middle ++ after) (hp : p.offset.byteIdx = before.utf8ByteSize)
    (hq : q.offset.byteIdx = (before ++ middle).utf8ByteSize) : text.extract p q = middle := by
  have hmiddle := ByteArray.extract_append_size_add (a := before.toByteArray)
    (b := (middle ++ after).toByteArray) (i := 0) (j := middle.toByteArray.size)
  have hfront : (middle ++ after).toByteArray.extract 0 middle.toByteArray.size =
      middle.toByteArray := by
    rw [String.toByteArray_append]
    exact ByteArray.extract_append_eq_left rfl
  rw [← String.toByteArray_inj, String.toByteArray_extract, hp, hq, String.utf8ByteSize_append,
    htext, String.append_assoc, String.toByteArray_append, ← hfront, ← hmiddle]
  rfl

/-- A text is cut in three at two positions, the first of them not behind the second. -/
theorem take_append_drop_take (cs : List Char) {a b : ℕ} (h : a ≤ b) :
    cs.take a ++ (cs.take b).drop a = cs.take b := by
  have hfront := List.take_append_drop a (cs.take b)
  rwa [List.take_take, Nat.min_eq_left h] at hfront

/-- The characters in front of a span, those of a slice, and those behind it. -/
theorem slice_split (s : Span) (text : String) : ∃ before after,
    text = before ++ s.slice text ++ after ∧
      s.offsets text.toList = (before.utf8ByteSize, (before ++ s.slice text).utf8ByteSize) ∧
      s.slice text = String.ofList
        ((text.toList.take (max s.start.toNat s.stop.toNat)).drop s.start.toNat) := by
  generalize hmiddle :
    (text.toList.take (max s.start.toNat s.stop.toNat)).drop s.start.toNat = middle
  have hfront := take_append_drop_take text.toList (Nat.le_max_left s.start.toNat s.stop.toNat)
  rw [hmiddle] at hfront
  let before := String.ofList (text.toList.take s.start.toNat)
  let after := String.ofList (text.toList.drop (max s.start.toNat s.stop.toNat))
  have htext : text = before ++ String.ofList middle ++ after := by
    rw [← String.ofList_append, hfront, ← String.ofList_append, List.take_append_drop,
      String.ofList_toList]
  have hoffsets : s.offsets text.toList =
      (before.utf8ByteSize, (before ++ String.ofList middle).utf8ByteSize) := by
    rw [offsets_eq, ← String.ofList_append, hfront, utf8ByteSize_ofList, utf8ByteSize_ofList]
  have hslice : s.slice text = String.ofList middle :=
    extract_eq htext (congrArg Prod.fst hoffsets) (congrArg Prod.snd hoffsets)
  exact ⟨before, after, by rwa [hslice], by rwa [hslice], hslice⟩

/-- **The characters of a slice are those at the positions of the span.** -/
theorem toList_slice (s : Span) (text : String) :
    (s.slice text).toList = window text.toList s.start.toNat s.stop.toNat := by
  obtain ⟨-, -, -, -, hslice⟩ := s.slice_split text
  rw [hslice, String.toList_ofList, window_eq, List.drop_take]
  congr 1
  omega

/-- Positions behind the end of a text are as good as the end. -/
theorem slice_congr (hstart : min s.start.toNat text.length = min s'.start.toNat text.length)
    (hstop : min s.stop.toNat text.length = min s'.stop.toNat text.length) :
    s.slice text = s'.slice text := by
  rw [← String.toList_inj, toList_slice, toList_slice, window, window]
  congr 1
  refine List.filter_congr fun item hitem => ?_
  have hlt : item.2 < text.length := List.snd_lt_of_mem_zipIdx hitem
  rw [decide_eq_decide]
  omega

/-- Slices of spans that meet are the slice of the span from end to end. -/
theorem slice_append {a b c : UInt32} (hab : a ≤ b) (hbc : b ≤ c) (text : String) :
    slice ⟨a, b⟩ text ++ slice ⟨b, c⟩ text = slice ⟨a, c⟩ text := by
  rw [UInt32.le_iff_toNat_le] at hab hbc
  rw [← String.toList_inj, String.toList_append, toList_slice, toList_slice, toList_slice,
    window_eq, window_eq, window_eq]
  have hdrop : text.toList.drop b.toNat = (text.toList.drop a.toNat).drop (b.toNat - a.toNat) := by
    rw [List.drop_drop, Nat.add_sub_cancel' hab]
  have hwidth : c.toNat - a.toNat = (b.toNat - a.toNat) + (c.toNat - b.toNat) := by omega
  rw [hdrop, hwidth, List.take_add]

theorem slice_of_le (h : s.stop ≤ s.start) (text : String) : s.slice text = "" := by
  rw [UInt32.le_iff_toNat_le] at h
  rw [← String.toList_inj, toList_slice, window_eq, Nat.sub_eq_zero_of_le h, List.take_zero]
  rfl

/-! ## Partitions -/

/-- A position belongs to a span. -/
def Covers (s : Span) (p : ℕ) : Prop := s.start.toNat ≤ p ∧ p < s.stop.toNat

instance (s : Span) (p : ℕ) : Decidable (s.Covers p) :=
  inferInstanceAs (Decidable (s.start.toNat ≤ p ∧ p < s.stop.toNat))

/-- Spans that share out the positions in front of an end: each of these positions belongs to a
span, and to one behind those of the positions in front of it. -/
structure Partition (spans : List Span) (size : ℕ) : Prop where
  covers : ∀ p < size, ∃ s ∈ spans, s.Covers p
  ordered : spans.Pairwise fun s s' =>
    ∀ p < size, ∀ q < size, s.Covers p → s'.Covers q → p < q

/-- The items of a list with their positions are in order. -/
theorem pairwise_zipIdx {α : Type} (items : List α) :
    items.zipIdx.Pairwise fun x y => x.2 < y.2 := by
  rw [← List.pairwise_map, List.zipIdx_map_snd]
  exact List.pairwise_lt_range'

/-- **Spans that share out the positions of a list share out its items.** -/
theorem Partition.flatMap_window {α : Type} {items : List α} (h : Partition spans items.length) :
    spans.flatMap (fun s => window items s.start.toNat s.stop.toNat) = items := by
  have hlt {x : α × ℕ} (hx : x ∈ items.zipIdx) : x.2 < items.length :=
    List.snd_lt_of_mem_zipIdx hx
  have hcovers (s : Span) (x : α × ℕ) :
      x ∈ items.zipIdx.filter (fun x => (s.start.toNat : ℤ) ≤ x.2 ∧ (x.2 : ℤ) < s.stop.toNat) ↔
        x ∈ items.zipIdx ∧ s.Covers x.2 := by
    rw [List.mem_filter, decide_eq_true_eq]
    exact and_congr_right fun _ => by unfold Covers; omega
  have hitems : spans.flatMap (fun s => items.zipIdx.filter fun x =>
      (s.start.toNat : ℤ) ≤ x.2 ∧ (x.2 : ℤ) < s.stop.toNat) = items.zipIdx := by
    -- both lists are in the order of the positions, so it is enough to compare their members
    have hantisymm : Std.Antisymm fun x y : α × ℕ => x.2 < y.2 :=
      ⟨fun _ _ hxy hyx => absurd hxy hyx.asymm⟩
    have hirrefl : Std.Irrefl fun x y : α × ℕ => x.2 < y.2 := ⟨fun _ hx => absurd hx (lt_irrefl _)⟩
    refine List.Pairwise.eq_of_mem_iff ?_ (pairwise_zipIdx items) fun x => ?_
    · refine List.pairwise_flatMap.2 ⟨fun s _ => (pairwise_zipIdx items).filter _, ?_⟩
      refine h.ordered.imp fun hordered x hx y hy => ?_
      obtain ⟨hx, hsx⟩ := (hcovers _ x).1 hx
      obtain ⟨hy, hsy⟩ := (hcovers _ y).1 hy
      exact hordered _ (hlt hx) _ (hlt hy) hsx hsy
    · rw [List.mem_flatMap]
      constructor
      · rintro ⟨s, -, hx⟩
        exact ((hcovers s x).1 hx).1
      · intro hx
        obtain ⟨s, hs, hsx⟩ := h.covers x.2 (hlt hx)
        exact ⟨s, hs, (hcovers s x).2 ⟨hx, hsx⟩⟩
  unfold window
  rw [← List.map_flatMap, hitems, List.zipIdx_map_fst]

/-- The slices of such spans share out a text. -/
theorem Partition.join_slices (h : Partition spans text.length) :
    String.join (spans.map (·.slice text)) = text := by
  rw [← String.toList_inj, String.toList_join, List.flatMap_map]
  simp only [toList_slice]
  exact h.flatMap_window

end Span

/-! ## Literal text -/

/-- A node of literal text of a source. -/
structure Node.IsTextOf (source : String) (node : Node) : Prop where
  kind : node.kind = .text
  source : node.location.source = source

variable {source : String} {nodes : List Node} {t : Template}

/-- Literal text puts out the code of its location. -/
theorem Node.IsTextOf.eval {node : Node} (h : node.IsTextOf source) (budget : ℕ) (m : Machine) :
    (Evaluator.within (budget + 1)).eval node m =
      .ok .none { m with output := m.output.push (node.location.code.slice source) } := by
  obtain ⟨id, location, kind⟩ := node
  obtain ⟨rfl, rfl⟩ := h
  exact locating_ok rfl location

/-- Literal texts put out the codes of their locations, one after another. -/
theorem exec_texts (h : ∀ node ∈ nodes, node.IsTextOf source) (budget : ℕ) (stop : Option Location)
    (m : Machine) :
    (Evaluator.within (budget + 1)).exec ⟨stop, nodes⟩ m = .ok () { m with
      output := m.output ++ (nodes.map fun node => node.location.code.slice source).toArray } := by
  induction nodes generalizing m with
  | nil =>
    rw [List.map_nil, Array.append_empty]
    rfl
  | cons node nodes ih =>
    have hnode := (h node List.mem_cons_self).eval budget m
    have hrest := ih (fun node hnode => h node (List.mem_cons_of_mem _ hnode))
      { m with output := m.output.push (node.location.code.slice source) }
    have hcons : (Evaluator.within (budget + 1)).exec ⟨stop, node :: nodes⟩ m =
        (Evaluator.within (budget + 1)).exec ⟨stop, nodes⟩ _ := bind_ok (bind_ok hnode)
    rw [hcons, hrest]
    simp

/-- **Literal text whose spans share out a source renders the source.** -/
theorem render_texts (h : ∀ node ∈ t.block.content, node.IsTextOf source)
    (hspans : Span.Partition (t.block.content.map (·.location.code)) source.length) (budget : ℕ)
    (m : Machine) : ∃ pieces, (Evaluator.within (budget + 1)).render t m = .ok pieces m ∧
      String.join pieces.toList = source := by
  have hexec := exec_texts h budget t.block.stop { m with output := #[] }
  have hrender : (Evaluator.within (budget + 1)).render t m = .ok _ m :=
    captured_ok (attempt_ok hexec)
  refine ⟨_, hrender, ?_⟩
  have hjoin := hspans.join_slices
  rw [List.map_map] at hjoin
  rw [Array.empty_append]
  exact hjoin

/-- **Spans cut source text by character.** The slice of a span has the characters at the positions
of the span, and none if it is inverted or empty. It is cut out between characters, and positions
behind the end are as good as the end. Slices of spans that meet make up the slice of the span from
end to end, and literal text whose spans share out a source renders that source. -/
theorem spans_cut_by_character (text : String) :
    (∀ s : Span, (s.slice text).toList = window text.toList s.start.toNat s.stop.toNat ∧
      (s.stop ≤ s.start → s.slice text = "") ∧
      (∃ before after, text = before ++ s.slice text ++ after ∧
        s.offsets text.toList = (before.utf8ByteSize, (before ++ s.slice text).utf8ByteSize)) ∧
      ∀ s' : Span, min s.start.toNat text.length = min s'.start.toNat text.length →
        min s.stop.toNat text.length = min s'.stop.toNat text.length →
        s.slice text = s'.slice text) ∧
    (∀ a b c : UInt32, a ≤ b → b ≤ c →
      Span.slice ⟨a, b⟩ text ++ Span.slice ⟨b, c⟩ text = Span.slice ⟨a, c⟩ text) ∧
    ∀ t : Template, (∀ node ∈ t.block.content, node.IsTextOf text) →
      Span.Partition (t.block.content.map (·.location.code)) text.length →
      ∀ m, renderString t m = .ok text m ∧ ∀ budget, ∃ pieces,
        (Evaluator.within (budget + 1)).render t m = .ok pieces m ∧
          String.join pieces.toList = text := by
  refine ⟨fun s => ⟨s.toList_slice text, fun h => Span.slice_of_le h text, ?_, fun s' =>
    Span.slice_congr⟩, fun a b c hab hbc => Span.slice_append hab hbc text,
    fun t htexts hspans m => ⟨?_, fun budget => render_texts htexts hspans budget m⟩⟩
  · obtain ⟨before, after, htext, hoffsets, -⟩ := s.slice_split text
    exact ⟨before, after, htext, hoffsets⟩
  · obtain ⟨pieces, hrender, hjoin⟩ := render_texts htexts hspans 0x3fffffffffffffff m
    have hlasting : render t m = .ok pieces m := hrender
    rw [renderString, bind_ok hlasting, hjoin]
    rfl

/-- A text of characters of one to four bytes, shared out by three spans of which one is inverted
and one ends behind it. -/
theorem spans_cut_by_character_wide :
    let text := "aé😀b"
    let spans : List Span := [⟨0, 2⟩, ⟨3, 1⟩, ⟨2, 4294967295⟩]
    let t : Template := ⟨0, none, text, none, "", "",
      ⟨none, spans.map fun span => ⟨1, .ofText text span, .text⟩⟩⟩
    let m := Machine.start 2 0 .first (.ofVars [] 0)
    (1 : UInt32) ≤ 3 ∧ Span.slice ⟨3, 1⟩ text = "" ∧
      min (4294967295 : UInt32).toNat text.length = min (4 : UInt32).toNat text.length ∧
      Span.slice ⟨2, 4294967295⟩ text = Span.slice ⟨2, 4⟩ text ∧
      (2 : UInt32) ≤ 3 ∧ (3 : UInt32) ≤ 4 ∧
      Span.slice ⟨2, 3⟩ text ++ Span.slice ⟨3, 4⟩ text = Span.slice ⟨2, 4⟩ text ∧
      (∀ node ∈ t.block.content, node.IsTextOf text) ∧
      Span.Partition (t.block.content.map (·.location.code)) text.length ∧
      renderString t m = .ok text m := by
  intro text spans t m
  obtain ⟨hslices, happend, hrenders⟩ := spans_cut_by_character text
  have hinverted := (hslices ⟨3, 1⟩).2.1 (by decide)
  have hclamped := (hslices ⟨2, 4294967295⟩).2.2.2 ⟨2, 4⟩ rfl (by decide)
  have htexts : ∀ node ∈ t.block.content, node.IsTextOf text := by
    intro node hnode
    obtain ⟨span, -, rfl⟩ := List.mem_map.1 hnode
    exact ⟨rfl, rfl⟩
  have hpartition : Span.Partition (t.block.content.map (·.location.code)) text.length :=
    ⟨by decide, by decide⟩
  exact ⟨by decide, hinverted, by decide, hclamped, by decide, by decide,
    happend 2 3 4 (by decide) (by decide), htexts, hpartition, (hrenders t htexts hpartition m).1⟩

end Templating
