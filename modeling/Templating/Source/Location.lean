import Templating.Text.Quoted

/-!
# Locations in source text

A span is a half-open range of positions. Positions count characters.

A node of a template knows where it was written: the span of its tag, the span of the code inside
the tag, and the keyword of the tag. Literal text has no keyword, and its two spans are equal.

* `Span.offsets`: where a span cuts a text, in bytes.
* `Span.slice`: the part of a text that a span covers.
* `Location.describe`: a location in an error message.
-/

namespace Templating

open Text

/-- The positions from `start` up to `stop`, the latter excluded. -/
structure Span where
  start : UInt32
  stop : UInt32
deriving DecidableEq, Inhabited

namespace Span

/-- The span without characters at the beginning. -/
def empty : Span := ⟨0, 0⟩

/-- The number of positions; an inverted span has none. -/
def length (s : Span) : Nat := s.stop.toNat - s.start.toNat

/-- Whether there are no positions. -/
def isEmpty (s : Span) : Bool := s.stop ≤ s.start

/-- The two offsets between which a span cuts a text. Its boundaries are passed once, so those for
the second offset are counted from behind the first one. Behind the last one is the end. -/
def offsets (s : Span) (cs : List Char) : Nat × Nat :=
  let passed := boundaries cs
  let start := passed[s.start.toNat]?.getD (byteLength cs)
  let rest := passed.drop (s.start.toNat + 1)
  let stop :=
    if s.stop ≤ s.start then start
    else rest[(s.stop - s.start - 1).toNat]?.getD (byteLength cs)
  (start, stop)

/-- The offsets are those of two positions, where an inverted span is empty. -/
theorem offsets_eq (s : Span) (cs : List Char) :
    s.offsets cs = (byteLength (cs.take s.start.toNat),
      byteLength (cs.take (max s.start.toNat s.stop.toNat))) := by
  have hle : s.stop ≤ s.start ↔ s.stop.toNat ≤ s.start.toNat := UInt32.le_iff_toNat_le
  simp only [offsets, hle, getElem?_boundaries, List.getElem?_drop]
  split
  next h => rw [Nat.max_eq_left h]
  next h =>
    have hlt : s.start.toNat < s.stop.toNat := Nat.lt_of_not_le h
    have hwidth : (s.stop - s.start - 1).toNat = s.stop.toNat - s.start.toNat - 1 := by
      have hsub : (s.stop - s.start).toNat = s.stop.toNat - s.start.toNat :=
        UInt32.toNat_sub_of_le _ _ (UInt32.le_iff_toNat_le.2 (Nat.le_of_lt hlt))
      have hone : (1 : UInt32) ≤ s.stop - s.start := by
        rw [UInt32.le_iff_toNat_le, hsub, UInt32.toNat_one]
        omega
      rw [UInt32.toNat_sub_of_le _ _ hone, hsub, UInt32.toNat_one]
    rw [hwidth, show s.start.toNat + 1 + (s.stop.toNat - s.start.toNat - 1) = s.stop.toNat by omega,
      Nat.max_eq_right (Nat.le_of_lt hlt)]

/-- The boundary at which a span begins in a text. -/
def startPos (s : Span) (text : String) : text.Pos :=
  text.pos ⟨(s.offsets text.toList).1⟩ (by
    rw [offsets_eq]
    exact isValid_byteLength_take text _)

/-- The boundary at which a span ends in a text. -/
def stopPos (s : Span) (text : String) : text.Pos :=
  text.pos ⟨(s.offsets text.toList).2⟩ (by
    rw [offsets_eq]
    exact isValid_byteLength_take text _)

/-- The part of a text that a span covers. -/
def slice (s : Span) (text : String) : String := text.extract (s.startPos text) (s.stopPos text)

/-- The two ends with dots between. -/
def text (s : Span) : String := s!"{s.start.toNat}..{s.stop.toNat}"

end Span

/-- Where a node was written. -/
structure Location where
  source : String
  tagType : Option String
  tag : Span
  code : Span
deriving DecidableEq, Inhabited

namespace Location

/-- The location of a piece of literal text. -/
def ofText (source : String) (span : Span) : Location := ⟨source, none, span, span⟩

/-- The text of the whole tag. -/
def tagText (l : Location) : String := l.tag.slice l.source

/-- The text of the code inside the tag. -/
def codeText (l : Location) : String := l.code.slice l.source

/-- The description that error messages use. -/
def describe (l : Location) : String :=
  let offset := s!"offset {l.tag.start.toNat}:{l.tag.stop.toNat}; "
  match l.tagType with
  | some tagType => offset ++ "tag " ++ tagType ++ " " ++ shown l.tagText
  | none => offset ++ "text " ++ shown l.tagText

/-- The short description for inspection. -/
def inspect (l : Location) : String := "Location(" ++ shown l.tagText ++ " @ " ++ l.tag.text ++ ")"

end Location

end Templating
