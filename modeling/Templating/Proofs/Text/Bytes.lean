import Templating.Proofs.Text.Search
import Templating.Text.Width

/-!
# Texts as bytes

Positions in texts count characters, offsets count the bytes of UTF-8. Offsets are on the boundary
of a character or inside one, and only those on a boundary cut a text into texts.

* `bytes`: the bytes of a text.
* `isBoundary`, `cutBytes?`: whether an offset is on a boundary, and the bytes between two offsets
  that are.
* `isBoundary_bytes_iff`: boundaries are the offsets between the characters.
* `byteOffset`, `charCount`: the offset of a position, and how many characters bytes stand for.
* `occursAt_bytes_iff`: **a text occurs among bytes where it occurs among characters.**
* `searchBytes?_eq`: a search among bytes from either side finds what a search among characters
  does.
-/

namespace Templating.Text

variable {cs before after needle hay : List Char} {c d : Char} {i j : ℕ}

/-- The bytes of a text. -/
def bytes (cs : List Char) : List UInt8 := cs.flatMap String.utf8EncodeChar

@[simp] theorem bytes_nil : bytes [] = [] := rfl

@[simp] theorem bytes_cons (c : Char) (cs : List Char) :
    bytes (c :: cs) = String.utf8EncodeChar c ++ bytes cs := rfl

@[simp] theorem bytes_append (before after : List Char) :
    bytes (before ++ after) = bytes before ++ bytes after := List.flatMap_append

theorem length_bytes (cs : List Char) : (bytes cs).length = byteLength cs := by
  induction cs with
  | nil => rfl
  | cons c cs ih =>
    rw [bytes_cons, List.length_append, String.length_utf8EncodeChar, ih, byteLength_cons]

/-- The bytes of a character: one that begins it, and others that begin none. -/
theorem exists_utf8EncodeChar (c : Char) : ∃ first others,
    String.utf8EncodeChar c = first :: others ∧ first.IsUTF8FirstByte ∧
      ∀ b ∈ others, ¬ b.IsUTF8FirstByte := by
  have hlength : (String.utf8EncodeChar c).length ≠ 0 := by
    rw [String.length_utf8EncodeChar]
    exact c.utf8Size_pos.ne'
  have hbegins {i : ℕ} (hi : i < (String.utf8EncodeChar c).length) :
      (String.utf8EncodeChar c)[i].IsUTF8FirstByte ↔ i = 0 :=
    UInt8.isUTF8FirstByte_getElem_utf8EncodeChar
  generalize String.utf8EncodeChar c = encoded at hlength hbegins
  cases encoded with
  | nil => exact (hlength rfl).elim
  | cons first others =>
    refine ⟨first, others, rfl, (hbegins (Nat.succ_pos _)).2 rfl, fun b hb => ?_⟩
    obtain ⟨i, hi, rfl⟩ := List.mem_iff_getElem.1 hb
    exact fun h => Nat.succ_ne_zero i ((hbegins (Nat.succ_lt_succ hi)).1 h)

/-- The bytes of a text begin those of another one only if the text begins that one. -/
theorem bytes_prefix_iff : bytes needle <+: bytes hay ↔ needle <+: hay := by
  constructor
  · rintro ⟨rest, heq⟩
    refine List.isPrefix_of_utf8Encode_append_eq_utf8Encode rest.toByteArray ?_
    rw [List.utf8Encode, List.utf8Encode, ← List.toByteArray_append]
    exact congrArg List.toByteArray heq
  · rintro ⟨rest, rfl⟩
    rw [bytes_append]
    exact List.prefix_append _ _

/-! ## Boundaries -/

/-- Whether an offset is on the boundary of a character: a character begins there, or the bytes are
at their end. -/
def isBoundary (bs : List UInt8) (offset : ℕ) : Bool :=
  match bs[offset]? with
  | some b => decide b.IsUTF8FirstByte
  | none => offset == bs.length

/-- The bytes between two offsets. Missing unless both are on a boundary, the first one not behind
the second one. -/
def cutBytes? (bs : List UInt8) (lo hi : ℕ) : Option (List UInt8) :=
  if lo ≤ hi ∧ isBoundary bs lo ∧ isBoundary bs hi then some ((bs.drop lo).take (hi - lo)) else none

/-- **Boundaries are the offsets between the characters.** -/
theorem isBoundary_bytes_iff :
    isBoundary (bytes cs) i = true ↔
      ∃ before after, cs = before ++ after ∧ (bytes before).length = i := by
  induction cs generalizing i with
  | nil =>
    have hnil : isBoundary (bytes []) i = true ↔ i = 0 := by simp [isBoundary]
    rw [hnil]
    constructor
    · rintro rfl
      exact ⟨[], [], rfl, rfl⟩
    · rintro ⟨before, after, heq, rfl⟩
      obtain ⟨rfl, rfl⟩ := List.append_eq_nil_iff.1 heq.symm
      rfl
  | cons c cs ih =>
    obtain ⟨first, others, hc, hfirst, hothers⟩ := exists_utf8EncodeChar c
    have hcs : bytes (c :: cs) = first :: (others ++ bytes cs) := by
      rw [bytes_cons, hc, List.cons_append]
    -- an offset behind the first byte is inside the character, or one of the rest
    cases i with
    | zero =>
      refine iff_of_true ?_ ⟨[], c :: cs, rfl, rfl⟩
      rw [hcs]
      simpa [isBoundary] using hfirst
    | succ i =>
      have hsplit : (∃ before after, c :: cs = before ++ after ∧ (bytes before).length = i + 1) ↔
          ∃ before after, cs = before ++ after ∧ others.length + (bytes before).length = i := by
        constructor
        · rintro ⟨_ | ⟨c', before⟩, after, heq, hlength⟩
          · cases hlength
          · cases heq
            rw [bytes_cons, hc, List.length_append, List.length_cons] at hlength
            exact ⟨before, after, rfl, by omega⟩
        · rintro ⟨before, after, rfl, hlength⟩
          refine ⟨c :: before, after, rfl, ?_⟩
          rw [bytes_cons, hc, List.length_append, List.length_cons]
          omega
      rw [hsplit, hcs]
      unfold isBoundary
      rw [List.getElem?_cons_succ, List.length_cons, List.length_append]
      by_cases hinside : i < others.length
      · rw [List.getElem?_append_left hinside, List.getElem?_eq_getElem hinside]
        refine iff_of_false ?_ fun ⟨_, _, _, h⟩ => by omega
        simpa using hothers _ (List.getElem_mem hinside)
      · rw [List.getElem?_append_right (by omega)]
        have hrest := ih (i := i - others.length)
        unfold isBoundary at hrest
        have hlength : (i + 1 == others.length + (bytes cs).length + 1) =
            (i - others.length == (bytes cs).length) := by
          rw [Bool.eq_iff_iff, beq_iff_eq, beq_iff_eq]
          omega
        rw [hlength, hrest]
        refine exists_congr fun before => exists_congr fun after => and_congr_right fun _ => ?_
        omega

theorem isBoundary_bytes (before after : List Char) :
    isBoundary (bytes (before ++ after)) (bytes before).length = true :=
  isBoundary_bytes_iff.2 ⟨before, after, rfl, rfl⟩

/-- A cut on boundaries gives the bytes of the text between them. -/
theorem cutBytes?_bytes (before middle after : List Char) :
    cutBytes? (bytes (before ++ middle ++ after)) (bytes before).length
      (bytes (before ++ middle)).length = some (bytes middle) := by
  have hlo := isBoundary_bytes before (middle ++ after)
  rw [← List.append_assoc] at hlo
  have hle : (bytes before).length ≤ (bytes (before ++ middle)).length := by
    rw [bytes_append, List.length_append]
    exact Nat.le_add_right _ _
  rw [cutBytes?, if_pos ⟨hle, hlo, isBoundary_bytes _ _⟩]
  simp only [bytes_append, List.append_assoc, List.length_append, Nat.add_sub_cancel_left]
  rw [List.drop_left, List.take_left]

/-! ## Positions and offsets -/

/-- The offset of a position; one behind the last character is the end. -/
def byteOffset (cs : List Char) (position : ℕ) : ℕ :=
  (offsetsFrom 0 cs)[position]?.getD (bytes cs).length

/-- How many characters begin in some bytes. -/
def charCount (bs : List UInt8) : ℕ := bs.countP fun b => b.IsUTF8FirstByte

/-- The offset of a position is the length of the bytes in front of it. -/
theorem byteOffset_eq (cs : List Char) (i : ℕ) :
    byteOffset cs i = (bytes (cs.take i)).length := by
  have h := getElem?_offsetsFrom 0 cs i
  rw [Nat.zero_add, Nat.zero_add] at h
  rw [byteOffset, length_bytes, length_bytes, h]

@[simp] theorem charCount_bytes (cs : List Char) : charCount (bytes cs) = cs.length := by
  induction cs with
  | nil => rfl
  | cons c cs ih =>
    obtain ⟨first, others, hc, hfirst, hothers⟩ := exists_utf8EncodeChar c
    have hothers' : others.countP (fun b => decide b.IsUTF8FirstByte) = 0 :=
      List.countP_eq_zero.2 fun b hb => by simpa using hothers b hb
    unfold charCount at ih ⊢
    rw [bytes_cons, hc, List.countP_append, List.countP_cons, hothers', ih,
      if_pos (decide_eq_true hfirst), List.length_cons]
    omega

/-! ## Searches -/

/-- **A text occurs among bytes where it occurs among characters**, and nowhere inside one. -/
theorem occursAt_bytes_iff (hne : needle ≠ []) :
    OccursAt (bytes needle) (bytes hay) j ↔
      ∃ i, OccursAt needle hay i ∧ (bytes (hay.take i)).length = j := by
  constructor
  · intro h
    have hle := h.add_length_le
    obtain ⟨front, back, heq, rfl⟩ := h
    obtain ⟨c, rest, rfl⟩ := List.exists_cons_of_ne_nil hne
    obtain ⟨first, others, hc, hfirst, -⟩ := exists_utf8EncodeChar c
    -- the byte that begins the needle begins a character of the text
    have hboundary : isBoundary (bytes hay) front.length = true := by
      unfold isBoundary
      rw [heq, bytes_cons, hc, List.append_assoc, List.getElem?_append_right le_rfl, Nat.sub_self]
      simpa using hfirst
    obtain ⟨before, after, rfl, hlength⟩ := isBoundary_bytes_iff.1 hboundary
    rw [bytes_append, List.append_assoc] at heq
    obtain ⟨rfl, hafter⟩ := List.append_inj heq hlength
    obtain ⟨rest', rfl⟩ := bytes_prefix_iff.1 ⟨back, hafter.symm⟩
    exact ⟨before.length, ⟨before, rest', (List.append_assoc _ _ _).symm, rfl⟩,
      by rw [List.take_left]⟩
  · rintro ⟨i, ⟨before, after, rfl, rfl⟩, rfl⟩
    refine ⟨bytes before, bytes after, by simp, ?_⟩
    rw [List.append_assoc, List.take_left]

/-- A search among bytes, from the left or from the right. -/
def searchBytes? (fromRight : Bool) (needle hay : List UInt8) : Option ℕ :=
  if fromRight then lastAt needle hay else firstAt needle hay

/-- A search among characters, from the left or from the right. -/
def search? (fromRight : Bool) (needle hay : List Char) : Option ℕ :=
  if fromRight then rfind? needle hay else find? needle hay

theorem monotone_length_bytes_take (cs : List Char) :
    Monotone fun i => (bytes (cs.take i)).length := by
  intro i j hij
  obtain ⟨rest, hrest⟩ := List.take_prefix_take_left (l := cs) hij
  change (bytes (cs.take i)).length ≤ (bytes (cs.take j)).length
  rw [← hrest, bytes_append, List.length_append]
  exact Nat.le_add_right _ _

/-- The empty text occurs at every position. -/
theorem occursAt_empty_iff {α : Type} {hay : List α} : OccursAt [] hay i ↔ i ≤ hay.length := by
  constructor
  · exact fun h => h.add_length_le
  · exact fun h => ⟨hay.take i, hay.drop i, by simp, by rw [List.length_take]; omega⟩

theorem isFirst_occursAt_empty {α : Type} (hay : List α) : IsFirst (OccursAt [] hay) (some 0) :=
  ⟨occursAt_empty_iff.2 (Nat.zero_le _), fun _ _ => Nat.zero_le _⟩

theorem isLast_occursAt_empty {α : Type} (hay : List α) :
    IsLast (OccursAt [] hay) (some hay.length) :=
  ⟨occursAt_empty_iff.2 le_rfl, fun _ hi => occursAt_empty_iff.1 hi⟩

/-- **A search among bytes finds the offset of the position** that a search among characters
finds. -/
theorem searchBytes?_eq (fromRight : Bool) (needle hay : List Char) :
    searchBytes? fromRight (bytes needle) (bytes hay) =
      (search? fromRight needle hay).map fun i => (bytes (hay.take i)).length := by
  unfold searchBytes? search?
  have hmono := monotone_length_bytes_take hay
  by_cases hempty : needle = []
  · -- the empty text is found at the ends, though it occurs inside characters as well
    subst hempty
    cases fromRight with
    | false =>
      have hbytes := (isFirst_firstAt [] (bytes hay)).unique (isFirst_occursAt_empty _)
      have hchars := (isFirst_find? [] hay).unique (isFirst_occursAt_empty _)
      simp [hbytes, hchars]
    | true =>
      have hbytes := (isLast_lastAt [] (bytes hay)).unique (isLast_occursAt_empty _)
      have hchars := (isLast_rfind? [] hay).unique (isLast_occursAt_empty _)
      simp [hbytes, hchars]
  · cases fromRight with
    | false =>
      exact (isFirst_firstAt _ _).unique
        ((isFirst_find? needle hay).map hmono fun _ => occursAt_bytes_iff hempty)
    | true =>
      exact (isLast_lastAt _ _).unique
        ((isLast_rfind? needle hay).map hmono fun _ => occursAt_bytes_iff hempty)

end Templating.Text
