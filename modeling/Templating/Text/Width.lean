/-!
# Fields of a least width, and offsets in UTF-8

Numbers are written with `Nat.toDigits`; here are the padded forms. Positions in texts count
characters, offsets count bytes.

* `padLeft`: fields of a least width.
* `length_le_byteLength`: every character takes a byte.
* `offsetsFrom`, `boundaries`: the offsets between the characters of a text.
* `getElem?_boundaries`: the offset of a position is the length in bytes of what is in front of it.
* `isValid_byteLength_take`: such an offset cuts no character.
-/

namespace Templating.Text

/-- Copies of `fill` in front, up to `width` characters in all. -/
def padLeft (fill : Char) (width : Nat) (cs : List Char) : List Char :=
  List.replicate (width - cs.length) fill ++ cs

/-- A number in a radix, with zeros in front up to `width` digits. -/
def padded (base width n : Nat) : String :=
  String.ofList (padLeft '0' width (Nat.toDigits base n))

/-- A decimal number of at least two digits. -/
def twoDigits (n : Nat) : String := padded 10 2 n

/-- The bytes that a text takes in UTF-8. -/
def byteLength (cs : List Char) : Nat := cs.foldr (fun c n => c.utf8Size + n) 0

theorem length_le_padLeft (fill : Char) (width : Nat) (cs : List Char) :
    width ≤ (padLeft fill width cs).length := by
  simp [padLeft]; omega

/-! ## Offsets -/

@[simp] theorem byteLength_nil : byteLength [] = 0 := rfl

@[simp] theorem byteLength_cons (c : Char) (cs : List Char) :
    byteLength (c :: cs) = c.utf8Size + byteLength cs := rfl

@[simp] theorem byteLength_append (cs ds : List Char) :
    byteLength (cs ++ ds) = byteLength cs + byteLength ds := by
  induction cs with
  | nil => simp
  | cons c cs ih => simp [ih, Nat.add_assoc]

theorem length_le_byteLength (cs : List Char) : cs.length ≤ byteLength cs := by
  induction cs with
  | nil => exact Nat.le_refl 0
  | cons c cs ih =>
    have hsize := c.utf8Size_pos
    rw [List.length_cons, byteLength_cons]
    omega

theorem utf8ByteSize_ofList (cs : List Char) :
    (String.ofList cs).utf8ByteSize = byteLength cs := by
  induction cs with
  | nil => rfl
  | cons c cs ih =>
    have hcons : String.ofList (c :: cs) = String.singleton c ++ String.ofList cs := by
      rw [← String.toList_inj]
      simp
    rw [byteLength_cons, ← ih, hcons, String.utf8ByteSize_append, String.utf8ByteSize_singleton]

theorem byteLength_toList (s : String) : byteLength s.toList = s.utf8ByteSize := by
  rw [← utf8ByteSize_ofList, String.ofList_toList]

theorem length_le_utf8ByteSize (s : String) : s.length ≤ s.utf8ByteSize := by
  rw [← String.length_toList, ← byteLength_toList]
  exact length_le_byteLength s.toList

/-- The offsets at which the characters of a text begin, if the text does at an offset. -/
def offsetsFrom (start : Nat) : List Char → List Nat
  | [] => []
  | c :: cs => start :: offsetsFrom (start + c.utf8Size) cs

/-- The offsets at which the characters of a text begin, and then the one of its end. -/
def boundaries (cs : List Char) : List Nat := offsetsFrom 0 cs ++ [byteLength cs]

theorem getElem?_offsetsFrom (start : Nat) (cs : List Char) (i : Nat) :
    (offsetsFrom start cs)[i]?.getD (start + byteLength cs) = start + byteLength (cs.take i) := by
  induction cs generalizing start i with
  | nil => simp [offsetsFrom]
  | cons c cs ih =>
    cases i with
    | zero => rfl
    | succ i =>
      have hrest := ih (start + c.utf8Size) i
      simpa only [offsetsFrom, List.getElem?_cons_succ, List.take_succ_cons, byteLength_cons,
        Nat.add_assoc] using hrest

/-- The offset of a position is the length in bytes of what is in front of it. Behind the text it is
that of the end. -/
theorem getElem?_boundaries (cs : List Char) (i : Nat) :
    (boundaries cs)[i]?.getD (byteLength cs) = byteLength (cs.take i) := by
  have hoffset := getElem?_offsetsFrom 0 cs i
  rw [Nat.zero_add, Nat.zero_add] at hoffset
  rw [← hoffset, boundaries, List.getElem?_append]
  split
  · rfl
  next h =>
    -- the end stands behind the last character, and nothing behind it
    have hnone : (offsetsFrom 0 cs)[i]? = none := List.getElem?_eq_none (Nat.le_of_not_lt h)
    rw [hnone, List.getElem?_singleton]
    split <;> rfl

/-- Offsets of positions cut no character. -/
theorem isValid_byteLength_take (text : String) (i : Nat) :
    String.Pos.Raw.IsValid text ⟨byteLength (text.toList.take i)⟩ :=
  String.Pos.Raw.isValid_iff_exists_take_toList.2 ⟨i, (utf8ByteSize_ofList _).symm⟩

end Templating.Text
