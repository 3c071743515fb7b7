import Templating.Proofs.Json.Cursor
import Templating.Text.Quoted

/-!
# Numbers and strings read back

* `absorb_eq`: all digits of a number below the limit are taken.
* `head?_toDigits_ne`: the digits of a number begin with a zero for zero only.
* `reads_wholeDigits`, `reads_numeral`: digits and the integer that they stand for.
* `reads_integer`: **every integer of 64 bits is read back** exactly, before anything that does not
  continue a number.
* `GivesFloat`, `float_of_read`: **a number with a point or an exponent is a float**, if it is read
  at all.
* `reads_hexUnit`: four hexadecimal digits.
* `reads_unitEscape_single`, `exists_pair`: the units of a character in UTF-16, one or a pair.
* `scriptChar_cases`: a character stands for itself, or its escape is read as the character.
* `reads_quoted`: **every string is read back** from its literal, with the opening quote consumed.
-/

namespace Templating.Json

open Parse Text

variable {n limit : Nat} {c : Char} {ds cs p : List Char} {S : List Char → Prop}

/-- The characters that continue a number. -/
def isNumberChar (c : Char) : Bool := c.isDigit || c = '.' || c = 'e' || c = 'E'

/-! ## Digits -/

theorem le_ofDigitChars (n : Nat) (ds : List Char) : n ≤ Nat.ofDigitChars 10 ds n := by
  have hpos : 0 < 10 ^ ds.length := Nat.pow_pos (by decide)
  have hmul : n ≤ 10 ^ ds.length * n := Nat.le_mul_of_pos_left n hpos
  rw [Nat.ofDigitChars_eq_ofDigitChars_zero]
  omega

theorem absorb_eq (h : Nat.ofDigitChars 10 ds n < limit) :
    absorb limit n ds = (Nat.ofDigitChars 10 ds n, []) := by
  induction ds generalizing n with
  | nil => rfl
  | cons d ds ih =>
    have hnext : 10 * n + Decimal.ofDigits [d] = 10 * n + (d.toNat - '0'.toNat) := by
      simp [Decimal.ofDigits]
    rw [Nat.ofDigitChars_cons] at h
    have hle := le_ofDigitChars (10 * n + (d.toNat - '0'.toNat)) ds
    rw [absorb, hnext, if_pos (Nat.lt_of_le_of_lt hle h), ih h, Nat.ofDigitChars_cons]

theorem head?_toDigits_ne (hn : 0 < n) : (Nat.toDigits 10 n).head? ≠ some '0' := by
  induction n using Nat.strongRecOn with
  | ind n ih =>
    rw [Nat.toDigits_eq_if (by decide)]
    split
    next h =>
      have hall : ∀ n < 10, 0 < n → [Nat.digitChar n].head? ≠ some '0' := by decide
      exact hall n h hn
    next h =>
      rw [List.head?_append_of_ne_nil _ Nat.toDigits_ne_nil]
      exact ih (n / 10) (by omega) (by omega)

theorem reads_zero : Reads wholeDigits ['0'] (Leaves Char.isDigit) ['0'] := by
  refine .get fun _ r hr i => ?_
  have hnext : r.head?.any Char.isDigit = false := by
    cases r with
    | nil => rfl
    | cons c r => exact hr c rfl
  refine ⟨i + byteLength ['0'], ?_⟩
  change (if r.head?.any Char.isDigit then _ else Pure.pure ['0'] : Parse (List Char))
    ⟨r, i + byteLength ['0']⟩ = _
  rw [hnext]
  rfl

theorem reads_nonzero (hds : ∀ d ∈ c :: ds, d.isDigit) (hc : c ≠ '0') :
    Reads wholeDigits (c :: ds) (Leaves Char.isDigit) (c :: ds) := by
  refine .get fun _ => .peek ?_
  split
  · contradiction
  next heq => exact absurd (Option.some.inj heq) hc
  next heq =>
    obtain rfl := Option.some.inj heq
    rw [if_pos (hds c List.mem_cons_self)]
    exact .takeWhile hds

/-- The digits of a number are taken as they are. -/
theorem reads_wholeDigits (n : Nat) :
    Reads wholeDigits (Nat.toDigits 10 n) (Leaves Char.isDigit) (Nat.toDigits 10 n) := by
  -- a zero stands alone, other numbers do not begin with one
  by_cases hn : n = 0
  · subst hn
    exact reads_zero
  · have hdigits : ∀ c ∈ Nat.toDigits 10 n, c.isDigit :=
      fun c hc => Decimal.isDigit_of_mem_toDigits hc
    have hhead := head?_toDigits_ne (Nat.pos_of_ne_zero hn)
    obtain ⟨c, cs, hcs⟩ := List.exists_cons_of_ne_nil (Nat.toDigits_ne_nil (n := n) (b := 10))
    rw [hcs] at hdigits hhead ⊢
    exact reads_nonzero hdigits fun hc => hhead (congrArg some hc)

/-- The digits of a number are taken as far as they reach, or they are rejected. -/
theorem rest_of_wholeDigits {r found : List Char} {i : Nat} {cursor : Cursor}
    (hds : ∀ d ∈ c :: ds, d.isDigit) (hr : Leaves Char.isDigit r)
    (h : wholeDigits ⟨c :: ds ++ r, i⟩ = .ok found cursor) : cursor.rest = r := by
  have of_reads (hread : Reads wholeDigits (c :: ds) (Leaves Char.isDigit) (c :: ds)) :
      cursor.rest = r := by
    obtain ⟨j, hj⟩ := hread hr i
    rw [hj] at h
    cases h
    rfl
  by_cases hc : c = '0'
  · subst hc
    cases ds with
    | nil => exact of_reads reads_zero
    | cons d ds =>
      -- no digit stands behind a zero
      change (if d.isDigit then failNext .invalidNumber else _ : Parse (List Char)) _ = _ at h
      rw [if_pos (hds d (by simp))] at h
      cases h
  · exact of_reads (reads_nonzero hds hc)

/-! ## Integers -/

theorem leaves_isDigit {r : List Char} (h : Leaves isNumberChar r) : Leaves Char.isDigit r := by
  intro c hc
  have hnone := h c hc
  simp only [isNumberChar, Bool.or_eq_false_iff] at hnone
  exact hnone.1.1.1

/-- Digits that fit 64 bits stand for an integer if nothing continues the number. -/
theorem reads_numeral {negative : Bool} (hn : n < significandLimit) :
    Reads (numeral negative) (Nat.toDigits 10 n) (Leaves isNumberChar) (integerOf negative n) := by
  have hall : absorb significandLimit 0 (Nat.toDigits 10 n) = (n, []) := by
    have hdigits := Nat.ofDigitChars_ten_toDigits (n := n)
    rw [absorb_eq (by rw [hdigits]; exact hn), hdigits]
  have hread : Reads (numeral negative) (Nat.toDigits 10 n ++ []) (Leaves isNumberChar)
      (integerOf negative n) := by
    refine (reads_wholeDigits n).bind ?_ fun r hr => leaves_isDigit hr
    simp only [hall]
    refine .look fun r hr => ?_
    split
    next h => exact absurd (hr _ h) (by decide)
    next h => exact absurd (hr _ h) (by decide)
    next h => exact absurd (hr _ h) (by decide)
    · exact .pure _
  rwa [List.append_nil] at hread

/-- The integer that a sign and digits stand for. -/
theorem integerOf_natAbs (w : Int64) :
    integerOf (decide (w.toInt < 0)) w.toInt.natAbs = .int w := by
  have hsigned : (if w.toInt < 0 then -(w.toInt.natAbs : Int) else w.toInt.natAbs) = w.toInt := by
    split <;> omega
  unfold integerOf
  simp only [decide_eq_true_eq, hsigned, Number.ofInt?_toInt]
  rw [if_neg (by omega)]

/-- A value that begins with a minus is a number. -/
theorem valueWith_minus (nested? : Option (Parse Value)) (r : List Char) (i : Nat) :
    valueWith nested? ⟨'-' :: r, i⟩ = numeral true ⟨r, i + byteLength ['-']⟩ := by
  have hpeek : peekToken? ⟨'-' :: r, i⟩ = .ok (some '-') ⟨'-' :: r, i⟩ :=
    peekToken?_of_leaves (.cons rfl r)
  exact bind_ok hpeek

/-- A value that begins with a digit is a number. -/
theorem valueWith_digit (nested? : Option (Parse Value)) {c : Char} (hc : c.isDigit)
    (r : List Char) (i : Nat) : valueWith nested? ⟨c :: r, i⟩ = numeral false ⟨c :: r, i⟩ := by
  have hgap : isGap c = false := by
    have hne {d : Char} (hd : d.isDigit = false) : c ≠ d := Decimal.ne_of_isDigit hc hd
    simp [isGap, hne]
  have hpeek : peekToken? ⟨c :: r, i⟩ = .ok (some c) ⟨c :: r, i⟩ :=
    peekToken?_of_leaves (.cons hgap r)
  refine (bind_ok hpeek).trans ?_
  simp only []
  -- no other kind of value begins with a digit
  split
  case h_8 => rw [if_pos hc]
  all_goals exact absurd hc (by decide)

/-- **Every integer of 64 bits is read back**, with its sign. -/
theorem reads_integer (nested? : Option (Parse Value)) (w : Int64) :
    Reads (valueWith nested?) w.toInt.repr.toList (Leaves isNumberChar) (.int w) := by
  have hfits := Number.fits_toInt w
  have hlimit : w.toInt.natAbs < significandLimit := by
    have hlow := hfits.1
    have hhigh := hfits.2
    unfold significandLimit
    omega
  have hinteger := integerOf_natAbs w
  rw [Decimal.toList_intRepr]
  -- a minus sign is read apart from the digits
  by_cases h : w.toInt < 0
  · rw [decide_eq_true h] at hinteger
    rw [if_pos h, ← hinteger]
    intro r hr i
    rw [List.append_assoc, List.singleton_append, valueWith_minus]
    exact reads_numeral hlimit hr _
  · rw [decide_eq_false h] at hinteger
    rw [if_neg h, List.nil_append, ← hinteger]
    have hread : Reads (numeral false) _ _ _ := reads_numeral hlimit
    have hdigits : ∀ c ∈ Nat.toDigits 10 w.toInt.natAbs, c.isDigit :=
      fun c hc => Decimal.isDigit_of_mem_toDigits hc
    obtain ⟨c, cs, hcs⟩ :=
      List.exists_cons_of_ne_nil (Nat.toDigits_ne_nil (n := w.toInt.natAbs) (b := 10))
    rw [hcs] at hread hdigits ⊢
    have hc : c.isDigit := hdigits c List.mem_cons_self
    intro r hr i
    rw [List.cons_append, valueWith_digit nested? hc]
    exact hread hr i

/-! ## Floats -/

/-- An action gives a float if it gives a value. -/
def GivesFloat (x : Parse Value) : Prop :=
  ∀ ⦃cursor v cursor'⦄, x cursor = .ok v cursor' → ∃ f, v = .float f

namespace GivesFloat

theorem float (f : Float) : GivesFloat (return .float f) := by
  intro cursor v cursor' h
  cases h
  exact ⟨f, rfl⟩

theorem failAt (fault : Fault) (i : Nat) : GivesFloat (failAt fault i) := fun _ _ _ h => nomatch h

theorem bind {α : Type} {x : Parse α} {f : α → Parse Value} (h : ∀ a, GivesFloat (f a)) :
    GivesFloat (x >>= f) := by
  intro cursor v cursor' hv
  obtain ⟨a, t, -, ht⟩ := bind_eq_ok hv
  exact h a ht

theorem fail (fault : Fault) : GivesFloat (fail fault) := .bind fun _ => .failAt _ _

theorem failNext (fault : Fault) : GivesFloat (failNext fault) := .bind fun _ => .failAt _ _

end GivesFloat

theorem givesFloat_floatOf (negative : Bool) (n : Nat) (e : Int) :
    GivesFloat (floatOf negative n e) := by
  unfold floatOf
  split
  · exact .float _
  · exact .fail _

theorem givesFloat_exponent (negative : Bool) (n : Nat) (e : Int) :
    GivesFloat (exponent negative n e) := by
  unfold exponent
  refine .bind fun _ => .bind fun _ => ?_
  extract_lets behind
  have hbehind (down : Bool) : GivesFloat (behind down) := by
    refine .bind fun _ => .bind fun _ => ?_
    split
    · exact .fail _
    split
    · exact .failAt _ _
    refine .bind fun _ => ?_
    split
    · exact givesFloat_floatOf _ _ _
    split
    · exact .failAt _ _
    · exact .float _
  split
  · exact .bind fun _ => .bind fun _ => hbehind _
  · exact .bind fun _ => .bind fun _ => hbehind _
  · exact .bind fun _ => hbehind _

theorem givesFloat_fraction (negative : Bool) (n : Nat) (e : Int) :
    GivesFloat (fraction negative n e) := by
  unfold fraction
  refine .bind fun _ => .bind fun _ => ?_
  split
  · exact .bind fun _ => .failNext _
  refine .bind fun _ => ?_
  split
  · exact givesFloat_exponent _ _ _
  · exact givesFloat_exponent _ _ _
  · exact givesFloat_floatOf _ _ _

/-- **A number with a point or an exponent is a float**, if it is read at all. -/
theorem float_of_numeral {negative : Bool} {mark : Char} {r : List Char} {i : Nat} {v : Value}
    {cursor : Cursor} (hds : ∀ d ∈ c :: ds, d.isDigit) (hmark : mark = '.' ∨ mark = 'e')
    (h : numeral negative ⟨c :: ds ++ mark :: r, i⟩ = .ok v cursor) : ∃ f, v = .float f := by
  obtain ⟨digits, t, hdigits, h⟩ := bind_eq_ok h
  have hleaves : Leaves Char.isDigit (mark :: r) :=
    .cons (by rcases hmark with rfl | rfl <;> rfl) r
  have hrest := rest_of_wholeDigits hds hleaves hdigits
  have hnext : peek? t = .ok (some mark) t := by
    change EStateM.Result.ok t.rest.head? t = _
    rw [hrest]
    rfl
  simp only [] at h
  rw [bind_ok hnext] at h
  rcases hmark with rfl | rfl
  · exact givesFloat_fraction _ _ _ h
  · exact givesFloat_exponent _ _ _ h

/-- **A text that is a number with a point or an exponent is a float**, if it is read at all. -/
theorem float_of_read {negative : Bool} {mark : Char} {r : List Char} {text : String} {v : Value}
    (hds : ∀ d ∈ c :: ds, d.isDigit) (hmark : mark = '.' ∨ mark = 'e')
    (htext : trim text.toList = (if negative then ['-'] else []) ++ (c :: ds ++ mark :: r))
    (h : read text = .ok v) : ∃ f, v = .float f := by
  -- the first character tells a number from all other values
  have hvalue {t : Cursor} (h : valueWithin maxNesting ⟨trim text.toList, 0⟩ = .ok v t) :
      ∃ f, v = .float f := by
    have hnested : valueWithin maxNesting = valueWith (some (valueWithin (maxNesting - 1))) := rfl
    rw [htext, hnested] at h
    cases negative with
    | true =>
      rw [if_pos rfl, List.singleton_append, valueWith_minus] at h
      exact float_of_numeral hds hmark h
    | false =>
      rw [if_neg Bool.false_ne_true, List.nil_append, List.cons_append,
        valueWith_digit _ (hds c List.mem_cons_self)] at h
      exact float_of_numeral hds hmark h
  unfold read at h
  simp only [] at h
  split at h
  next v' t hwhole =>
    cases h
    obtain ⟨v', t', hread, hend⟩ := bind_eq_ok hwhole
    obtain ⟨next, t'', -, hend⟩ := bind_eq_ok hend
    cases next with
    | none =>
      cases hend
      exact hvalue hread
    | some c => cases hend
  next => cases h

/-! ## Escapes -/

/-- The four digits of a unit. -/
def unitDigits (unit : Nat) : List Char := padLeft '0' 4 (Nat.toDigits 16 unit)

theorem reads_hexUnit {unit : Nat} (h : unit < 0x10000) :
    Reads hexUnit (unitDigits unit) S unit := by
  intro r _ i
  have hlength : (unitDigits unit).length = 4 := length_padLeft_toDigits (by decide) h
  have hbytes : ¬ byteLength (unitDigits unit ++ r) < 4 := by
    have hle := length_le_byteLength (unitDigits unit ++ r)
    rw [List.length_append, hlength] at hle
    omega
  have hnumber : hexNumber? (unitDigits unit) = some unit := hexNumber?_padLeft 4 unit
  refine ⟨i + byteLength (unitDigits unit), ?_⟩
  have hget : (get : Parse Cursor) ⟨unitDigits unit ++ r, i⟩ =
    .ok ⟨unitDigits unit ++ r, i⟩ ⟨unitDigits unit ++ r, i⟩ := rfl
  rw [hexUnit, bind_ok hget]
  simp only [if_neg hbytes, List.take_left' hlength, hnumber]
  change EStateM.Result.ok unit (⟨(unitDigits unit ++ r).drop 4,
    i + byteLength ((unitDigits unit ++ r).take 4)⟩ : Cursor) = _
  rw [List.take_left' hlength, List.drop_left' hlength]

theorem reads_inEscape (c : Char) : Reads (inEscape c) [c] S () := by
  intro r _ i
  refine ⟨i + byteLength [c], ?_⟩
  change (if c = c then skip 1 else _) ⟨c :: r, i⟩ = _
  rw [if_pos rfl]
  rfl

/-- No character is half a pair. -/
theorem toNat_range (c : Char) : c.toNat < 0xd800 ∨ 0xdfff < c.toNat ∧ c.toNat < 0x110000 := c.valid

theorem reads_unitEscape_single (h : c.toNat < 0x10000) :
    Reads unitEscape (unitDigits c.toNat) S c := by
  have hrange := toNat_range c
  refine (reads_hexUnit h).map ?_
  rw [if_neg (by omega), if_pos (by omega), Char.ofNat_toNat]

/-- A character outside the basic plane is read from the two units of its pair. -/
theorem exists_pair (h : ¬ c.toNat < 0x10000) :
    ∃ high low, utf16Units c = [high, low] ∧
      Reads unitEscape (unitDigits high ++ (['\\'] ++ (['u'] ++ unitDigits low))) S c := by
  have hrange := toNat_range c
  refine ⟨_, _, if_neg h, ?_⟩
  generalize hhigh : 0xd800 + (c.toNat - 0x10000) / 0x400 = high
  generalize hlow : 0xdc00 + (c.toNat - 0x10000) % 0x400 = low
  have hvalue : 0x10000 + 0x400 * (high - 0xd800) + (low - 0xdc00) = c.toNat := by omega
  refine (reads_hexUnit (by omega)).before ?_
  rw [if_neg (by omega), if_neg (by omega)]
  refine (reads_inEscape '\\').before ((reads_inEscape 'u').before ?_)
  refine (reads_hexUnit (by omega)).map ?_
  rw [if_pos (by omega), hvalue, Char.ofNat_toNat]

theorem reads_escape_unit (h : Reads unitEscape cs S c) : Reads escape ('u' :: cs) S c :=
  .get fun _ => (Reads.next 'u').before h

/-- A character that is written by its units. -/
theorem exists_units (c : Char) :
    ∃ cs, ((utf16Units c).flatMap fun unit => '\\' :: 'u' :: unitDigits unit) = '\\' :: cs ∧
      Reads escape cs Anything c := by
  by_cases h : c.toNat < 0x10000
  · have hunits : utf16Units c = [c.toNat] := if_pos h
    refine ⟨'u' :: unitDigits c.toNat, ?_, reads_escape_unit (reads_unitEscape_single h)⟩
    rw [hunits, List.flatMap_singleton]
  · obtain ⟨high, low, hunits, hread⟩ := exists_pair h
    refine ⟨_, ?_, reads_escape_unit hread⟩
    rw [hunits, List.flatMap_cons, List.flatMap_singleton]
    rfl

/-- A character of a string stands for itself, or it is read from its escape. -/
theorem scriptChar_cases (c : Char) :
    scriptChar c = [c] ∧ isPlain c ∨
      ∃ cs, scriptChar c = '\\' :: cs ∧ Reads escape cs Anything c := by
  unfold scriptChar
  split
  next h => exact h ▸ .inr ⟨['r'], rfl, .get fun _ => (Reads.next 'r').map rfl⟩
  split
  next h => exact h ▸ .inr ⟨['n'], rfl, .get fun _ => (Reads.next 'n').map rfl⟩
  split
  next h => exact h ▸ .inr ⟨['t'], rfl, .get fun _ => (Reads.next 't').map rfl⟩
  split
  next h => subst h; exact .inr ⟨['\\'], rfl, .get fun _ => (Reads.next '\\').map rfl⟩
  split
  next h => subst h; exact .inr ⟨['"'], rfl, .get fun _ => (Reads.next '"').map rfl⟩
  split
  next hbackslash hquote h => exact .inl ⟨rfl, by simp [isPlain, hbackslash, hquote, h.1]⟩
  exact .inr (exists_units c)

theorem scriptChar_ne_nil (c : Char) : scriptChar c ≠ [] := by
  rcases scriptChar_cases c with ⟨h, -⟩ | ⟨cs, h, -⟩
  · simp [h]
  · simp [h]

/-! ## Whole strings -/

/-- The characters of a string up to its quote, after some that stand for themselves. -/
theorem reads_quotedWithin {bound : List Char} (hbound : cs.length < bound.length)
    (hp : ∀ c ∈ p, isPlain c) :
    Reads (quotedWithin bound) (p ++ (cs.flatMap scriptChar ++ ['"'])) S (p ++ cs) := by
  -- the plain characters grow until an escape or the quote comes
  induction cs generalizing bound p with
  | nil =>
    obtain ⟨_, bound, rfl⟩ := List.exists_cons_of_length_pos hbound
    rw [List.append_nil]
    refine (Reads.takeWhile hp).bind ((Reads.next '"').map rfl) fun r _ => ?_
    exact Leaves.cons rfl r
  | cons c cs ih =>
    obtain ⟨_, bound, rfl⟩ := List.exists_cons_of_length_pos (Nat.zero_lt_of_lt hbound)
    rw [List.flatMap_cons]
    rcases scriptChar_cases c with ⟨htext, hc⟩ | ⟨ds, htext, hescape⟩
    · have hplain : ∀ d ∈ p ++ [c], isPlain d := by
        simpa [or_imp, forall_and] using ⟨hp, hc⟩
      have hmore := ih (Nat.lt_of_succ_lt hbound) hplain
      simpa [htext] using hmore
    · have hmore := ih (Nat.lt_of_succ_lt_succ hbound) (p := []) (by simp)
      rw [htext, List.cons_append, List.cons_append, List.append_assoc]
      refine (Reads.takeWhile hp).bind ?_ fun r _ => Leaves.cons rfl _
      exact (Reads.next '\\').before (hescape.before (hmore.map rfl))

/-- **Every string is read back** from its literal. -/
theorem reads_quoted (s : String) : Reads quoted (scriptChars s.toList).tail S s := by
  intro r hr i
  have hbound : s.toList.length < ((scriptChars s.toList).tail ++ r).length := by
    have hlength : s.toList.length ≤ (s.toList.flatMap scriptChar).length := by
      induction s.toList with
      | nil => exact Nat.le_refl 0
      | cons c cs ih =>
        have hc := List.length_pos_iff.2 (scriptChar_ne_nil c)
        simp only [List.flatMap_cons, List.length_append, List.length_cons]
        omega
    simp only [scriptChars, List.cons_append, List.tail_cons, List.length_append, List.length_cons]
    omega
  obtain ⟨j, hj⟩ := reads_quotedWithin (p := []) hbound (by simp) hr i
  refine ⟨j, ?_⟩
  change (quotedWithin ((scriptChars s.toList).tail ++ r) >>= _)
    ⟨[] ++ (s.toList.flatMap scriptChar ++ ['"']) ++ r, i⟩ = _
  rw [bind_ok hj, List.nil_append]
  exact congrArg (EStateM.Result.ok · _) String.ofList_toList

end Templating.Json
