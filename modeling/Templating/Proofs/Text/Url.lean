import Templating.Proofs.Number.IntLiteral
import Templating.Proofs.Text.Bytes
import Templating.Text.Escape

/-!
# Texts in URLs, as bytes

A text is quoted byte by byte, and a quoted text stands for bytes, which need not be those of a
text.

* `IsQuoted`: the texts that quoting writes.
* `Unquotes`: the bytes that a text stands for.
* `escapesComplete_iff`: **a text stands for bytes if each `%` begins an escape**, and only then.
* `flatMap_urlQuoteChar`, `isQuoted_flatMap`, `unquotes_flatMap`: quoting works on bytes, and quoted
  bytes stand for themselves.
* `unquotedBytes?_eq_some_iff`, `urlUnquote?_eq_some_iff`: **the reader accepts exactly the texts
  that stand for bytes**, and for those of a text.
* `scanBytes?_bytes`: a reader that looks at one byte after another finds the same.
-/

namespace Templating.Text

open Number

variable {c : Char} {cs : List Char} {bs : List UInt8} {s t : String} {d : ℕ}

/-! ## Quoted texts -/

/-- A hexadecimal digit with a capital letter. -/
def IsCapitalHex (c : Char) : Prop :=
  '0'.toNat ≤ c.toNat ∧ c.toNat ≤ '9'.toNat ∨ 'A'.toNat ≤ c.toNat ∧ c.toNat ≤ 'F'.toNat

/-- Unreserved characters, and escapes of two hexadecimal digits with capital letters. -/
inductive IsQuoted : List Char → Prop where
  | nil : IsQuoted []
  | plain {c : Char} {cs : List Char} : isUnreserved c = true → IsQuoted cs → IsQuoted (c :: cs)
  | escape {a b : Char} {cs : List Char} :
      IsCapitalHex a → IsCapitalHex b → IsQuoted cs → IsQuoted ('%' :: a :: b :: cs)

/-- The bytes that a text stands for. An escape stands for a byte, another character for its
bytes. -/
inductive Unquotes : List Char → List UInt8 → Prop where
  | nil : Unquotes [] []
  | escape {a b : Char} {high low : ℕ} {cs : List Char} {bs : List UInt8} :
      IsDigit 16 a high → IsDigit 16 b low → Unquotes cs bs →
      Unquotes ('%' :: a :: b :: cs) (UInt8.ofNat (16 * high + low) :: bs)
  | plain {c : Char} {cs : List Char} {bs : List UInt8} :
      c ≠ '%' → Unquotes cs bs → Unquotes (c :: cs) (String.utf8EncodeChar c ++ bs)

/-- A hexadecimal digit in either case. -/
def IsHex (c : Char) : Prop := ∃ d, IsDigit 16 c d

/-- Each `%` is followed by two hexadecimal digits. -/
def EscapesComplete (cs : List Char) : Prop :=
  ∀ before after, cs = before ++ '%' :: after →
    ∃ a b rest, after = a :: b :: rest ∧ IsHex a ∧ IsHex b

/-! ### What a text stands for -/

theorem IsHex.ne_percent (h : IsHex c) : c ≠ '%' := by
  rintro rfl
  obtain ⟨d, hd⟩ := h
  exact absurd hd.toNat_cases (by decide)

theorem Unquotes.escapesComplete (h : Unquotes cs bs) : EscapesComplete cs := by
  induction h with
  | nil => exact fun before after heq => by cases before <;> cases heq
  | @escape a b high low cs bs ha hb _ ih =>
    intro before after heq
    -- the digits are not the `%` that is looked at
    match before, heq with
    | [], heq =>
      cases heq
      exact ⟨a, b, cs, rfl, ⟨high, ha⟩, low, hb⟩
    | [_], heq =>
      cases heq
      exact absurd rfl (IsHex.ne_percent ⟨high, ha⟩)
    | [_, _], heq =>
      cases heq
      exact absurd rfl (IsHex.ne_percent ⟨low, hb⟩)
    | _ :: _ :: _ :: before, heq =>
      cases heq
      exact ih before after rfl
  | @plain c cs bs hc _ ih =>
    intro before after heq
    cases before with
    | nil =>
      cases heq
      exact absurd rfl hc
    | cons _ before =>
      cases heq
      exact ih before after rfl

theorem EscapesComplete.of_append (before : List Char) (h : EscapesComplete (before ++ cs)) :
    EscapesComplete cs := by
  rintro front after rfl
  exact h (before ++ front) after (List.append_assoc _ _ _).symm

/-- A text whose escapes are complete stands for bytes. The induction is on the length, since an
escape takes three characters. -/
theorem EscapesComplete.exists_unquotes (h : EscapesComplete cs) : ∃ bs, Unquotes cs bs := by
  induction hlength : cs.length using Nat.strong_induction_on generalizing cs with
  | _ n ih =>
    subst hlength
    cases cs with
    | nil => exact ⟨[], .nil⟩
    | cons c cs =>
      by_cases hc : c = '%'
      · subst hc
        obtain ⟨a, b, rest, rfl, ⟨high, ha⟩, low, hb⟩ := h [] cs rfl
        have hrest : EscapesComplete rest := h.of_append ['%', a, b]
        obtain ⟨bs, hbs⟩ := ih rest.length (by simp only [List.length_cons]; omega) hrest rfl
        exact ⟨_, .escape ha hb hbs⟩
      · have hrest : EscapesComplete cs := h.of_append [c]
        obtain ⟨bs, hbs⟩ := ih cs.length (Nat.lt_succ_self _) hrest rfl
        exact ⟨_, .plain hc hbs⟩

/-- **A text stands for bytes if its escapes are complete**, and only then. -/
theorem escapesComplete_iff : EscapesComplete cs ↔ ∃ bs, Unquotes cs bs :=
  ⟨EscapesComplete.exists_unquotes, fun ⟨_, h⟩ => h.escapesComplete⟩

/-! ## Quoting -/

/-- The character with the number of a byte. -/
def byteChar (b : UInt8) : Char := Char.ofNat b.toNat

/-- A byte in a URL. -/
def quoteByte (b : UInt8) : List Char :=
  if isUnreserved (byteChar b) then [byteChar b] else escapeByte b

/-- A character of ASCII is one byte, and the bytes of another one are none of ASCII. -/
theorem utf8EncodeChar_cases (c : Char) :
    c.toNat < 128 ∧ String.utf8EncodeChar c = [UInt8.ofNat c.toNat] ∨
      128 ≤ c.toNat ∧ ∀ b ∈ String.utf8EncodeChar c, 128 ≤ b.toNat := by
  by_cases h : c.toNat < 128
  · refine .inl ⟨h, ?_⟩
    have hsize : c.utf8Size = 1 := by
      rw [Char.utf8Size_eq_one_iff, UInt32.le_iff_toNat_le]
      exact Nat.le_of_lt_succ h
    rw [String.utf8EncodeChar_eq_singleton hsize]
    rfl
  · have hval : ¬ c.val.toNat ≤ 127 := fun hle => h (Nat.lt_succ_of_le hle)
    refine .inr ⟨Nat.le_of_not_lt h, ?_⟩
    rw [String.utf8EncodeChar.eq_1, if_neg hval]
    repeat' split
    all_goals
      simp only [List.mem_cons, List.not_mem_nil, or_false, forall_eq_or_imp, forall_eq,
        UInt8.toNat_ofNat']
      omega

theorem toNat_byteChar (b : UInt8) : (byteChar b).toNat = b.toNat := by
  have hsize : b.toNat < 256 := b.toNat_lt_size
  have hvalid : b.toNat.isValidChar := .inl (by omega)
  rw [byteChar, Char.ofNat, dif_pos hvalid]
  rfl

/-- Letters and digits of ASCII stand between `0` and `z`. -/
theorem toNat_of_isAlphanum (h : c.isAlphanum = true) : 48 ≤ c.toNat ∧ c.toNat ≤ 122 := by
  have hparts : ((c.isUpper || c.isLower) || c.isDigit) = true := h
  rw [Bool.or_eq_true, Bool.or_eq_true] at hparts
  obtain (hupper | hlower) | hdigit := hparts
  · have hbounds : 65 ≤ c.toNat ∧ c.toNat ≤ 90 := of_decide_eq_true hupper
    omega
  · have hbounds := Bool.and_eq_true_iff.1 hlower
    have hlow : 97 ≤ c.toNat := of_decide_eq_true hbounds.1
    have hhigh : c.toNat ≤ 122 := of_decide_eq_true hbounds.2
    omega
  · have hbounds : 48 ≤ c.toNat ∧ c.toNat ≤ 57 := Char.isDigit_iff_toNat.1 hdigit
    omega

theorem toNat_lt_and_ne_of_isUnreserved (h : isUnreserved c = true) : c.toNat < 128 ∧ c ≠ '%' := by
  rw [isUnreserved, Bool.or_eq_true, List.contains_iff_mem] at h
  obtain h | h := h
  · have hrange := toNat_of_isAlphanum h
    refine ⟨by omega, ?_⟩
    rintro rfl
    exact absurd hrange.1 (by decide)
  · simp only [List.mem_cons, List.not_mem_nil, or_false] at h
    obtain rfl | rfl | rfl | rfl | rfl | rfl | rfl | rfl | rfl := h <;> decide

/-- The capital digits. -/
theorem digitChar_toUpper {n : ℕ} (h : n < 16) :
    IsCapitalHex (Nat.digitChar n).toUpper ∧ IsDigit 16 (Nat.digitChar n).toUpper n := by
  unfold IsCapitalHex IsDigit
  revert n
  decide

theorem escapeByte_eq (b : UInt8) : escapeByte b =
    ['%', (Nat.digitChar (b.toNat / 16)).toUpper, (Nat.digitChar (b.toNat % 16)).toUpper] := by
  have hsize : b.toNat < 256 := b.toNat_lt_size
  have hhigh : b.toNat / 16 < 16 := by omega
  rw [escapeByte, Nat.toDigits_eq_if (by decide)]
  split
  · rename_i hsmall
    rw [Nat.div_eq_of_lt hsmall, Nat.mod_eq_of_lt hsmall]
    rfl
  · rw [Nat.toDigits_of_lt_base hhigh]
    rfl

/-- A byte stands for itself, or it is escaped. -/
theorem quoteByte_cases (b : UInt8) :
    (∃ c, quoteByte b = [c] ∧ isUnreserved c = true ∧ String.utf8EncodeChar c = [b]) ∨
      ∃ high low, quoteByte b = ['%', high, low] ∧ (IsCapitalHex high ∧ IsCapitalHex low) ∧
        ∃ m n, IsDigit 16 high m ∧ IsDigit 16 low n ∧ UInt8.ofNat (16 * m + n) = b := by
  have hsize : b.toNat < 256 := b.toNat_lt_size
  unfold quoteByte
  split
  · rename_i h
    refine .inl ⟨byteChar b, rfl, h, ?_⟩
    obtain ⟨-, hone⟩ | ⟨hlarge, -⟩ := utf8EncodeChar_cases (byteChar b)
    · rw [hone, toNat_byteChar, UInt8.ofNat_toNat]
    · exact absurd (toNat_lt_and_ne_of_isUnreserved h).1 (Nat.not_lt.2 hlarge)
  · have hhigh : b.toNat / 16 < 16 := by omega
    have hlow : b.toNat % 16 < 16 := by omega
    obtain ⟨hcapital, hdigit⟩ := digitChar_toUpper hhigh
    obtain ⟨hcapital', hdigit'⟩ := digitChar_toUpper hlow
    refine .inr ⟨_, _, escapeByte_eq b, ⟨hcapital, hcapital'⟩, _, _, hdigit, hdigit', ?_⟩
    rw [Nat.div_add_mod, UInt8.ofNat_toNat]

/-- **Quoting writes unreserved characters and escapes.** -/
theorem isQuoted_flatMap (bs : List UInt8) : IsQuoted (bs.flatMap quoteByte) := by
  induction bs with
  | nil => exact .nil
  | cons b bs ih =>
    rw [List.flatMap_cons]
    obtain ⟨c, hb, hc, -⟩ | ⟨high, low, hb, ⟨hhigh, hlow⟩, -⟩ := quoteByte_cases b
    · rw [hb]
      exact .plain hc ih
    · rw [hb]
      exact .escape hhigh hlow ih

/-- **Quoted bytes stand for themselves**, whether they are those of a text or not. -/
theorem unquotes_flatMap (bs : List UInt8) : Unquotes (bs.flatMap quoteByte) bs := by
  induction bs with
  | nil => exact .nil
  | cons b bs ih =>
    rw [List.flatMap_cons]
    obtain ⟨c, hb, hc, hbyte⟩ | ⟨high, low, hb, -, m, n, hm, hn, rfl⟩ := quoteByte_cases b
    · have hplain := Unquotes.plain (toNat_lt_and_ne_of_isUnreserved hc).2 ih
      rw [hbyte] at hplain
      rwa [hb]
    · rw [hb]
      exact .escape hm hn ih

/-- A character is quoted as its bytes are. -/
theorem urlQuoteChar_eq (c : Char) :
    urlQuoteChar c = (String.utf8EncodeChar c).flatMap quoteByte := by
  obtain ⟨hsmall, hone⟩ | ⟨hlarge, hall⟩ := utf8EncodeChar_cases c
  · have hchar : byteChar (UInt8.ofNat c.toNat) = c := by
      rw [byteChar, UInt8.toNat_ofNat_of_lt' (hsmall.trans (by decide)), Char.ofNat_toNat]
    rw [urlQuoteChar, hone, List.flatMap_singleton, List.flatMap_singleton, quoteByte, hchar]
  · rw [urlQuoteChar, if_neg (fun h => Nat.not_lt.2 hlarge (toNat_lt_and_ne_of_isUnreserved h).1)]
    refine List.flatMap_congr fun b hb => (if_neg fun h => ?_).symm
    have hless := (toNat_lt_and_ne_of_isUnreserved h).1
    rw [toNat_byteChar] at hless
    exact Nat.not_lt.2 (hall b hb) hless

/-- **A text is quoted byte by byte.** -/
theorem flatMap_urlQuoteChar (cs : List Char) :
    cs.flatMap urlQuoteChar = (bytes cs).flatMap quoteByte := by
  rw [bytes, List.flatMap_assoc]
  exact List.flatMap_congr fun c _ => urlQuoteChar_eq c

/-! ## Reading -/

theorem hexValue?_eq_some_iff : hexValue? c = some d ↔ IsDigit 16 c d := by
  have hdecimal : c.isDigit = true ↔ 48 ≤ c.toNat ∧ c.toNat ≤ 57 := Char.isDigit_iff_toNat
  have hsmall : 'a' ≤ c ∧ c ≤ 'f' ↔ 97 ≤ c.toNat ∧ c.toNat ≤ 102 := Iff.rfl
  have hcapital : 'A' ≤ c ∧ c ≤ 'F' ↔ 65 ≤ c.toNat ∧ c.toNat ≤ 70 := Iff.rfl
  simp only [hexValue?, IsDigit, hdecimal, hsmall, hcapital, Char.reduceToNat]
  split
  · rw [Option.some_inj]
    omega
  · split
    · rw [Option.some_inj]
      omega
    · split
      · rw [Option.some_inj]
        omega
      · refine iff_of_false (Option.some_ne_none d).symm ?_
        omega

theorem unquotedBytes?_plain (hc : c ≠ '%') :
    unquotedBytes? (c :: cs) = (unquotedBytes? cs).map (String.utf8EncodeChar c ++ ·) := by
  rw [unquotedBytes?.eq_4]
  · exact fun _ _ _ h _ => hc h
  · exact hc

/-- **The reader accepts exactly the texts that stand for bytes.** -/
theorem unquotedBytes?_eq_some_iff : unquotedBytes? cs = some bs ↔ Unquotes cs bs := by
  constructor
  · intro h
    induction cs using unquotedBytes?.induct generalizing bs with
    | case1 =>
      cases h
      exact .nil
    | case2 a b cs ih =>
      obtain ⟨high, hhigh, h⟩ := Option.bind_eq_some_iff.1 h
      obtain ⟨low, hlow, h⟩ := Option.bind_eq_some_iff.1 h
      obtain ⟨rest, hrest, ⟨⟩⟩ := Option.bind_eq_some_iff.1 h
      exact .escape (hexValue?_eq_some_iff.1 hhigh) (hexValue?_eq_some_iff.1 hlow) (ih hrest)
    | case3 cs hshort =>
      rw [unquotedBytes?.eq_3 cs hshort] at h
      cases h
    | case4 c cs _ hc ih =>
      rw [unquotedBytes?_plain hc] at h
      obtain ⟨rest, hrest, rfl⟩ := Option.map_eq_some_iff.1 h
      exact .plain hc (ih hrest)
  · intro h
    induction h with
    | nil => rfl
    | escape ha hb _ ih =>
      rw [unquotedBytes?, hexValue?_eq_some_iff.2 ha, hexValue?_eq_some_iff.2 hb, ih]
      rfl
    | plain hc _ ih =>
      rw [unquotedBytes?_plain hc, ih]
      rfl

theorem toByteArray_eq (s : String) : s.toByteArray = ⟨(bytes s.toList).toArray⟩ := by
  have hlist : (bytes s.toList).toByteArray = ⟨(bytes s.toList).toArray⟩ :=
    ByteArray.ext List.data_toByteArray
  rw [← hlist, ← String.ofList_toList (s := s), String.toByteArray_ofList, String.toList_ofList]
  rfl

/-- Bytes are decoded exactly if they are those of a text. -/
theorem fromUTF8?_eq_some_iff : String.fromUTF8? ⟨bs.toArray⟩ = some s ↔ bs = bytes s.toList := by
  unfold String.fromUTF8?
  constructor
  · intro h
    split at h
    · rename_i hvalid
      have hbytes : (String.fromUTF8 ⟨bs.toArray⟩ hvalid).toByteArray = ⟨bs.toArray⟩ := rfl
      rw [Option.some_inj.1 h, toByteArray_eq] at hbytes
      exact (List.toArray_inj (ByteArray.mk.inj hbytes)).symm
    · cases h
  · rintro rfl
    have hvalid : ByteArray.IsValidUTF8 ⟨(bytes s.toList).toArray⟩ :=
      toByteArray_eq s ▸ s.isValidUTF8
    rw [dif_pos hvalid, Option.some_inj, ← String.toByteArray_inj]
    exact (toByteArray_eq s).symm

/-- **A text that stands for the bytes of another one is read as that one**, and no further text is
read. -/
theorem urlUnquote?_eq_some_iff :
    urlUnquote? t = some s ↔ Unquotes t.toList (bytes s.toList) := by
  unfold urlUnquote?
  constructor
  · intro h
    obtain ⟨bs, hbs, hdecode⟩ := Option.bind_eq_some_iff.1 h
    have hstands := unquotedBytes?_eq_some_iff.1 hbs
    rwa [fromUTF8?_eq_some_iff.1 hdecode] at hstands
  · intro h
    have hbs := unquotedBytes?_eq_some_iff.2 h
    rw [hbs]
    exact fromUTF8?_eq_some_iff.2 rfl

/-! ## One byte after another -/

/-- Reads a quoted text byte by byte. -/
def scanBytes? : List UInt8 → Option (List UInt8)
  | [] => some []
  | b :: bs =>
    if b = '%'.toUInt8 then
      match bs with
      | x :: y :: rest => do
        let high ← hexValue? (byteChar x)
        let low ← hexValue? (byteChar y)
        let found ← scanBytes? rest
        return UInt8.ofNat (16 * high + low) :: found
      | _ => none
    else (scanBytes? bs).map (b :: ·)

theorem scanBytes?_plain (h : ∀ b ∈ bs, b ≠ '%'.toUInt8) (rest : List UInt8) :
    scanBytes? (bs ++ rest) = (scanBytes? rest).map (bs ++ ·) := by
  induction bs with
  | nil => simp
  | cons b bs ih =>
    obtain ⟨hb, hbs⟩ := List.forall_mem_cons.1 h
    rw [List.cons_append, scanBytes?.eq_def]
    simp only [if_neg hb, ih hbs, Option.map_map]
    rfl

theorem scanBytes?_escape (x y : UInt8) (rest : List UInt8) :
    scanBytes? ('%'.toUInt8 :: x :: y :: rest) = (do
      let high ← hexValue? (byteChar x)
      let low ← hexValue? (byteChar y)
      let found ← scanBytes? rest
      return UInt8.ofNat (16 * high + low) :: found) := by
  rw [scanBytes?.eq_def]
  rfl

theorem scanBytes?_not_hex {x : UInt8} (h : hexValue? (byteChar x) = none) (bs : List UInt8) :
    scanBytes? ('%'.toUInt8 :: x :: bs) = none := by
  cases bs with
  | nil => rfl
  | cons y rest => rw [scanBytes?_escape, h, Option.bind_eq_bind, Option.bind_none]

/-- Among bytes, a hexadecimal digit is found where the character is one. -/
theorem exists_hexByte (c : Char) : ∃ first others, String.utf8EncodeChar c = first :: others ∧
    hexValue? (byteChar first) = hexValue? c ∧ (hexValue? c ≠ none → others = []) := by
  obtain ⟨hsmall, hone⟩ | ⟨hlarge, hall⟩ := utf8EncodeChar_cases c
  · refine ⟨_, [], hone, ?_, fun _ => rfl⟩
    rw [byteChar, UInt8.toNat_ofNat_of_lt' (hsmall.trans (by decide)), Char.ofNat_toNat]
  · have hnone {c : Char} (h : 128 ≤ c.toNat) : hexValue? c = none := by
      refine Option.eq_none_iff_forall_ne_some.2 fun d hd => ?_
      have hcases := (hexValue?_eq_some_iff.1 hd).toNat_cases
      omega
    obtain ⟨first, others, hc, -⟩ := exists_utf8EncodeChar c
    rw [hc] at hall
    have hfirst := hall first List.mem_cons_self
    rw [← toNat_byteChar] at hfirst
    exact ⟨first, others, hc, (hnone hfirst).trans (hnone hlarge).symm,
      fun h => absurd (hnone hlarge) h⟩

/-- A character that is no `%` has no such byte. -/
theorem ne_percent_of_mem_utf8EncodeChar (hc : c ≠ '%') {b : UInt8}
    (hb : b ∈ String.utf8EncodeChar c) : b ≠ '%'.toUInt8 := by
  rintro rfl
  obtain ⟨hsmall, hone⟩ | ⟨-, hall⟩ := utf8EncodeChar_cases c
  · have hbyte : (UInt8.ofNat c.toNat).toNat = c.toNat :=
      UInt8.toNat_ofNat_of_lt' (hsmall.trans (by decide))
    rw [hone, List.mem_singleton, ← UInt8.toNat_inj, hbyte] at hb
    exact hc (Char.toNat_inj.1 hb.symm)
  · exact absurd (hall _ hb) (by decide)

/-- **Byte by byte, the same is read.** The bytes behind a `%` are looked at without regard to the
characters that they belong to, but only those of ASCII are digits. -/
theorem scanBytes?_bytes (cs : List Char) : scanBytes? (bytes cs) = unquotedBytes? cs := by
  have hpercent (cs : List Char) : bytes ('%' :: cs) = '%'.toUInt8 :: bytes cs := rfl
  induction cs using unquotedBytes?.induct with
  | case1 => rfl
  | case2 a b cs ih =>
    obtain ⟨x, xs, ha, hx, hxs⟩ := exists_hexByte a
    obtain ⟨y, ys, hb, hy, hys⟩ := exists_hexByte b
    rw [hpercent, bytes_cons, bytes_cons, ha, hb, List.cons_append, unquotedBytes?]
    -- a digit is one byte, so the second byte is that of the second character
    cases hhigh : hexValue? a with
    | none =>
      rw [scanBytes?_not_hex (hx.trans hhigh)]
      rfl
    | some high =>
      obtain rfl := hxs (by simp [hhigh])
      rw [List.nil_append, List.cons_append, scanBytes?_escape, hx, hy, hhigh]
      cases hlow : hexValue? b with
      | none => rfl
      | some low =>
        obtain rfl := hys (by simp [hlow])
        rw [List.nil_append, ih]
  | case3 cs hshort =>
    rw [unquotedBytes?.eq_3 cs hshort, hpercent]
    -- an escape that is cut off: a character of several bytes does not make up for the second digit
    match cs, hshort with
    | [], _ => rfl
    | [a], _ =>
      obtain ⟨x, xs, ha, hx, hxs⟩ := exists_hexByte a
      rw [bytes_cons, ha, bytes_nil, List.append_nil]
      cases hhigh : hexValue? a with
      | none => exact scanBytes?_not_hex (hx.trans hhigh) xs
      | some high =>
        obtain rfl := hxs (by simp [hhigh])
        rfl
    | a :: b :: cs, hshort => exact (hshort a b cs rfl).elim
  | case4 c cs _ hc ih =>
    have hplain : ∀ b ∈ String.utf8EncodeChar c, b ≠ '%'.toUInt8 :=
      fun b hb => ne_percent_of_mem_utf8EncodeChar hc hb
    rw [bytes_cons, scanBytes?_plain hplain, ih, unquotedBytes?_plain hc]

end Templating.Text
