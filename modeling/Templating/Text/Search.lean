import Templating.Text.Blank

/-!
# Searching, splitting and replacing

Texts are lists of characters, and positions count characters.

* `find?`, `rfind?`: the first and the last place where a text occurs.
* `splitOn`, `rsplitOn`: the pieces between a separator, from the left and from the right, with an
  optional limit on the number of cuts.
* `splitBlank`, `rsplitBlank`: the same for runs of blanks.
* `replaced`: occurrences from the left replaced.
-/

namespace Templating.Text

/-- The first place where `needle` occurs. -/
def find? (needle : List Char) : List Char → Option Nat
  | [] => if needle = [] then some 0 else none
  | c :: cs => if needle.isPrefixOf (c :: cs) then some 0 else (find? needle cs).map (· + 1)

/-- The last place where `needle` occurs. -/
def rfind? (needle hay : List Char) : Option Nat :=
  (find? needle.reverse hay.reverse).map (hay.length - needle.length - ·)

/-- Whether `needle` occurs. -/
def contains (needle hay : List Char) : Bool := (find? needle hay).isSome

/-- Whether another cut is allowed; no limit allows every cut. -/
def mayCut : Option Nat → Bool
  | some 0 => false
  | _ => true

/-- The limit after one more cut. -/
def lessOne (limit : Option Nat) : Option Nat := limit.map (· - 1)

/-- The piece before the first separator and the text after it. -/
def cut? (sep cs : List Char) : Option (List Char × List Char) :=
  (find? sep cs).map fun i => (cs.take i, cs.drop (i + sep.length))

/-- Cuts from the left. The fuel is the number of cuts that the length of the text allows. -/
def splitFrom (sep : List Char) : Nat → Option Nat → List Char → List (List Char)
  | 0, _, cs => [cs]
  | fuel + 1, limit, cs =>
    if mayCut limit then
      match cut? sep cs with
      | some (piece, rest) => piece :: splitFrom sep fuel (lessOne limit) rest
      | none => [cs]
    else [cs]

/-- The pieces between the occurrences of a separator that is not empty, cut from the left. -/
def splitOn (sep cs : List Char) (limit : Option Nat) : List (List Char) :=
  splitFrom sep (cs.length + 1) limit cs

/-- The pieces between the occurrences of a separator that is not empty, cut from the right. -/
def rsplitOn (sep cs : List Char) (limit : Option Nat) : List (List Char) :=
  ((splitOn sep.reverse cs.reverse limit).map List.reverse).reverse

/-- The text up to the first blank, and what follows the blanks there. -/
def firstWord (cs : List Char) : List Char × List Char :=
  (cs.takeWhile (!isBlank ·), trimStart (cs.dropWhile (!isBlank ·)))

/-- The text behind the last blank, and what precedes the blanks there. -/
def lastWord (cs : List Char) : List Char × List Char :=
  (takeWhileEnd (!isBlank ·) cs, trimEnd (dropWhileEnd (!isBlank ·) cs))

theorem length_firstWord_lt {cs : List Char} (h : cs ≠ []) :
    (firstWord cs).2.length < cs.length := by
  unfold firstWord trimStart
  obtain ⟨c, cs, rfl⟩ := List.exists_cons_of_ne_nil h
  have hword := (List.dropWhile_sublist (!isBlank ·) (l := cs)).length_le
  by_cases hc : isBlank c
  · -- at least the blank in front is dropped
    have hblanks := (List.dropWhile_sublist isBlank (l := cs)).length_le
    simpa [hc] using Nat.lt_succ_of_le hblanks
  · have hblanks :=
      (List.dropWhile_sublist isBlank (l := cs.dropWhile (!isBlank ·))).length_le
    simpa [hc] using Nat.lt_succ_of_le (Nat.le_trans hblanks hword)

/-- The last word of a text is the first one of the reversed text. -/
theorem lastWord_eq (cs : List Char) :
    lastWord cs = ((firstWord cs.reverse).1.reverse, (firstWord cs.reverse).2.reverse) := by
  simp [lastWord, firstWord, takeWhileEnd, dropWhileEnd, trimEnd, trimStart]

theorem length_lastWord_lt {cs : List Char} (h : cs ≠ []) :
    (lastWord cs).2.length < cs.length := by
  have hword : (firstWord cs.reverse).2.length < cs.reverse.length :=
    length_firstWord_lt (mt List.reverse_eq_nil_iff.1 h)
  rw [lastWord_eq, List.length_reverse]
  rwa [List.length_reverse] at hword

/-- Cuts words off the front, for a text that starts with no blank. Once the limit is reached the
rest follows as it stands. -/
def splitBlankFrom (limit : Option Nat) (cs : List Char) : List (List Char) :=
  if cs = [] then []
  else if mayCut limit then
    (firstWord cs).1 :: splitBlankFrom (lessOne limit) (firstWord cs).2
  else [cs]
termination_by cs.length
decreasing_by exact length_firstWord_lt ‹_›

/-- Cuts words off the end, for a text that ends with no blank, and the last word first. -/
def rsplitBlankFrom (limit : Option Nat) (cs : List Char) : List (List Char) :=
  if cs = [] then []
  else if mayCut limit then
    (lastWord cs).1 :: rsplitBlankFrom (lessOne limit) (lastWord cs).2
  else [cs]
termination_by cs.length
decreasing_by exact length_lastWord_lt ‹_›

/-- The words of a text; once the limit is reached the rest follows as it stands. -/
def splitBlank (cs : List Char) (limit : Option Nat) : List (List Char) :=
  splitBlankFrom limit (trimStart cs)

/-- The words of a text, taken from its end. -/
def rsplitBlank (cs : List Char) (limit : Option Nat) : List (List Char) :=
  (rsplitBlankFrom limit (trimEnd cs)).reverse

/-- The text with `new` between all its characters and at both ends, up to a limit from the left. -/
def interspersed (new : List Char) : Option Nat → List Char → List Char
  | limit, [] => if mayCut limit then new else []
  | limit, c :: cs =>
    if mayCut limit then new ++ c :: interspersed new (lessOne limit) cs else c :: cs

/-- Replaces occurrences from the left. The fuel is the number of occurrences that the length of
the text allows. -/
def replaceFrom (old new : List Char) : Nat → Option Nat → List Char → List Char
  | 0, _, cs => cs
  | fuel + 1, limit, cs =>
    if mayCut limit then
      match cut? old cs with
      | some (before, rest) => before ++ new ++ replaceFrom old new fuel (lessOne limit) rest
      | none => cs
    else cs

/-- The text with the occurrences of `old` replaced from the left. An empty `old` occurs before
every character and at the end. -/
def replaced (old new cs : List Char) (limit : Option Nat) : List Char :=
  if old = [] then interspersed new limit cs else replaceFrom old new (cs.length + 1) limit cs

end Templating.Text
