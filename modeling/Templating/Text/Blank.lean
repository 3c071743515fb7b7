/-!
# Blank characters

The characters of the Unicode property `White_Space`, and texts freed from them at either end.

* `trim`: a text without blanks at its ends.
* `exists_trim`: what is cut off the ends of a text is blank.
* `trim_between`: **blanks around a text are cut off**, if it has none at its ends.
-/

namespace Templating.Text

/-- The characters with the property `White_Space`. -/
def isBlank (c : Char) : Bool :=
  let n := c.toNat
  if n < 0x80 then n == 0x20 || (9 ≤ n && n ≤ 13)
  else n == 0x85 || n == 0xa0 || n == 0x1680 || (0x2000 ≤ n && n ≤ 0x200a) || n == 0x2028 ||
    n == 0x2029 || n == 0x202f || n == 0x205f || n == 0x3000

/-- The text without the characters of a class at its end. -/
def dropWhileEnd (p : Char → Bool) (cs : List Char) : List Char :=
  (cs.reverse.dropWhile p).reverse

/-- The characters of a class at the end of the text. -/
def takeWhileEnd (p : Char → Bool) (cs : List Char) : List Char :=
  (cs.reverse.takeWhile p).reverse

/-- The text from its first character that is not blank. -/
def trimStart (cs : List Char) : List Char := cs.dropWhile isBlank

/-- The text up to its last character that is not blank. -/
def trimEnd (cs : List Char) : List Char := dropWhileEnd isBlank cs

/-- The text without blanks at either end. -/
def trim (cs : List Char) : List Char := trimEnd (trimStart cs)

variable {before after cs : List Char} {c d : Char}

theorem all_takeWhile {p : Char → Bool} : ∀ c ∈ cs.takeWhile p, p c = true :=
  List.all_eq_true.1 List.all_takeWhile

theorem trimEnd_eq (cs : List Char) : trimEnd cs = (trimStart cs.reverse).reverse := rfl

/-- A text is what is left of it between blanks. -/
theorem exists_trim (cs : List Char) : ∃ before after, cs = before ++ trim cs ++ after ∧
    (∀ c ∈ before, isBlank c = true) ∧ ∀ c ∈ after, isBlank c = true := by
  refine ⟨cs.takeWhile isBlank, ((trimStart cs).reverse.takeWhile isBlank).reverse, ?_,
    all_takeWhile, fun c hc => all_takeWhile c (List.mem_reverse.1 hc)⟩
  rw [List.append_assoc, trim, trimEnd_eq, trimStart, trimStart, ← List.reverse_append,
    List.takeWhile_append_dropWhile, List.reverse_reverse, List.takeWhile_append_dropWhile]

theorem trimStart_blank_append (hbefore : ∀ c ∈ before, isBlank c = true)
    (hfirst : cs.head? = some c) (hc : isBlank c = false) : trimStart (before ++ cs) = cs := by
  obtain ⟨rest, rfl⟩ := List.head?_eq_some_iff.1 hfirst
  rw [trimStart, List.dropWhile_append_of_pos hbefore, List.dropWhile_cons_of_neg (by simp [hc])]

/-- **Blanks around a text are cut off**, if it has none at its ends. -/
theorem trim_between (hbefore : ∀ c ∈ before, isBlank c = true) (hfirst : cs.head? = some c)
    (hc : isBlank c = false) (hlast : cs.getLast? = some d) (hd : isBlank d = false)
    (hafter : ∀ c ∈ after, isBlank c = true) : trim (before ++ cs ++ after) = cs := by
  have hwhole : (cs ++ after).head? = some c := by rw [List.head?_append, hfirst]; rfl
  have hreverse : trimStart (after.reverse ++ cs.reverse) = cs.reverse :=
    trimStart_blank_append (fun b hb => hafter b (List.mem_reverse.1 hb))
      (List.head?_reverse.trans hlast) hd
  rw [List.append_assoc, trim, trimStart_blank_append hbefore hwhole hc, trimEnd_eq,
    List.reverse_append, hreverse, List.reverse_reverse]

end Templating.Text
