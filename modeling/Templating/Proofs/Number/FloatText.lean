import Templating.Proofs.Json.Scalar
import Templating.Proofs.Number.IntLiteral
import Templating.Proofs.Number.Numeral
import Templating.Proofs.Number.Shortest

/-!
# The text of floats

* `readFloat?_chars`: **a numeral is read as its digits and the power of ten of the last one.**
* `Rounds`, `readFloat?_of_rounds`: so a number that is rounded to a float is read as the float.
* `Spells`, `exists_spells`: the digits of a float are the fewest that are rounded to it.
* `readFloat?_floatRepr`: **a float is read back from its text.**
* `NoInteger`, `Written.noInteger`: no reader takes the text for an integer.
* `trappingText`, `trappingText_eq`: the text step by step, where no step traps.
* `float_texts_keep_number`: **the text of a float names the number of its digits.**
-/

namespace Templating.Decimal

open Binary64 Text
open Float.Model (UnpackedFloat)

/-! ## Numerals -/

variable {w : List Char} {c : Char} {b : Bool}

theorem toLower_of_isDigit (h : c.isDigit) : c.toLower = c := by
  rw [Char.toLower, dif_neg]
  simp only [Char.isDigit] at h
  grind

theorem takeSign_digits (hc : c.isDigit) (cs : List Char) :
    takeSign ((if b then ['-'] else []) ++ c :: cs) = (b, c :: cs) := by
  cases b with
  | true => rfl
  | false =>
    have hminus := ne_of_isDigit hc (d := '-') rfl
    have hplus := ne_of_isDigit hc (d := '+') rfl
    rw [if_neg (by decide), List.nil_append, takeSign]
    · exact fun _ h => hminus (List.cons.inj h).1
    · exact fun _ h => hplus (List.cons.inj h).1

/-- A word that stands for no number starts with no digit. -/
theorem lower_ne_word (hc : c.isDigit) (cs : List Char) {d : Char} (hd : d.isDigit = false)
    (w : List Char) : String.ofList ((c :: cs).map Char.toLower) ≠ String.ofList (d :: w) := by
  intro h
  have hlist := congrArg String.toList h
  rw [String.toList_ofList, String.toList_ofList, List.map_cons, toLower_of_isDigit hc] at hlist
  exact ne_of_isDigit hc hd (List.cons.inj hlist).1

/-- What is read when a text starts with digits. -/
theorem readFloat?_digits {rest : List Char} (hw : ∀ c ∈ w, c.isDigit) (hne : w ≠ [])
    (hrest : Leaves Char.isDigit rest) :
    readFloat? ((if b then ['-'] else []) ++ (w ++ rest)) =
      let (f, t) := match rest with
        | '.' :: after => (after.takeWhile Char.isDigit, after.dropWhile Char.isDigit)
        | _ => ([], rest)
      (readExponent? t).map fun e => ofDecimal b (ofDigits (w ++ f)) (e - f.length) := by
  have htake := takeWhile_append_of_leaves hw hrest
  have hdrop := dropWhile_append_of_leaves hw hrest
  obtain ⟨c, cs, rfl⟩ := List.exists_cons_of_ne_nil hne
  have hc : c.isDigit := hw c List.mem_cons_self
  rw [List.cons_append] at htake hdrop ⊢
  have hinf := lower_ne_word hc (cs ++ rest) (d := 'i') rfl ['n', 'f']
  have hinfinity := lower_ne_word hc (cs ++ rest) (d := 'i') rfl ['n', 'f', 'i', 'n', 'i', 't', 'y']
  have hnan := lower_ne_word hc (cs ++ rest) (d := 'n') rfl ['a', 'n']
  rw [readFloat?, takeSign_digits hc]
  simp only [htake, hdrop]
  exact (if_neg (not_or.2 ⟨hinf, hinfinity⟩)).trans ((if_neg hnan).trans (if_neg (by simp)))

/-- An exponent is read as what it stands for, and so is none. -/
theorem readExponent?_chars (x : Option Exponent) :
    readExponent? (x.elim [] Exponent.chars) = some (x.elim 0 Exponent.value) := by
  cases x with
  | none => rfl
  | some x =>
    obtain ⟨mark, ds⟩ := x
    have hread : readNat? ds.chars = some (ofDigits ds.chars) :=
      if_pos ⟨ds.ne_nil, List.all_eq_true.2 ds.isDigit⟩
    have hplain : takeSign ds.chars = (false, ds.chars) := by
      obtain ⟨d, rest, hds, hd⟩ := ds.exists_cons
      rw [hds]
      exact takeSign_digits (b := false) hd rest
    rw [Option.elim_some, Exponent.chars, readExponent?, if_pos (.inl rfl), readInt?]
    cases mark with
    | none =>
      simp only [Mark.chars, List.nil_append, hplain, hread]
      rfl
    | plus =>
      simp only [Mark.chars, List.singleton_append, takeSign, hread]
      rfl
    | minus =>
      simp only [Mark.chars, List.singleton_append, takeSign, hread]
      rfl

/-- **A numeral is read as its digits and the power of ten that the last one counts.** -/
theorem readFloat?_chars (n : Numeral) :
    readFloat? n.chars = some (ofDecimal n.negative (ofDigits n.digits) n.unit) := by
  have hexponent := readExponent?_chars n.exponent
  have hleaves := leaves_exponent n.exponent
  rw [Numeral.chars, readFloat?_digits n.whole.isDigit n.whole.ne_nil n.leaves_tail]
  unfold Numeral.digits Numeral.unit Numeral.power Numeral.tail
  cases n.fraction with
  | none =>
    -- an exponent does not begin with a point
    have hnone : (match n.exponent.elim [] Exponent.chars with
        | '.' :: after => (after.takeWhile Char.isDigit, after.dropWhile Char.isDigit)
        | _ => ([], n.exponent.elim [] Exponent.chars)) =
        ([], n.exponent.elim [] Exponent.chars) := by
      cases n.exponent <;> rfl
    simp only [Option.elim_none, List.nil_append, List.append_nil, hnone, hexponent]
    rfl
  | some f =>
    simp only [Option.elim_some, List.cons_append, takeWhile_append_of_leaves f.isDigit hleaves,
      dropWhile_append_of_leaves f.isDigit hleaves, hexponent]
    rfl

/-! ## Floats -/

theorem signOf_isMinus (sign : UnpackedFloat.Sign) : Binary64.signOf (isMinus sign) = sign := by
  cases sign <;> rfl

theorem ofDecimal_zero (b : Bool) (g : Int) :
    ofDecimal b 0 g = Float.ofModel (.pack (.zero (Binary64.signOf b))) := by
  cases b with
  | true =>
    simp [ofDecimal, decimal, UnpackedFloat.neg, Binary64.signOf]
    rfl
  | false => simp [ofDecimal, decimal, Binary64.signOf]

theorem ofDecimal_eq {m d : Nat} {e g : Int} (b : Bool) (hd : 0 < d) (hc : Canonical m e)
    (hm : RoundsTo m e (d * 10 ^ g / 2 ^ e)) :
    ofDecimal b d g = Float.ofModel (.pack (.finite (Binary64.signOf b) m e hc.pos)) := by
  rw [ofDecimal, decimal_eq hd hc hm]
  cases b <;> rfl

/-- A number of a sign is rounded to a float: zero to a zero, any other number to the float whose
interval holds it. -/
inductive Rounds (x : Float) : Bool → ℚ → Prop where
  | zero {sign : UnpackedFloat.Sign} :
      x.toModel.unpack = .zero sign → Rounds x (isMinus sign) 0
  | finite {sign : UnpackedFloat.Sign} {m : Nat} {e : Int} {hm : 0 < m} {q : ℚ} :
      x.toModel.unpack = .finite sign m e hm → RoundsTo m e (q / 2 ^ e) →
      Rounds x (isMinus sign) q

theorem Numeral.ofDigits_pos (n : Numeral) (h : 0 < n.size) : 0 < ofDigits n.digits := by
  refine Nat.pos_of_ne_zero fun hzero => h.ne' ?_
  rw [Numeral.size, hzero, Nat.cast_zero, zero_mul]

/-- **A numeral of a number that is rounded to a float is read as the float.** -/
theorem readFloat?_of_rounds {x : Float} {n : Numeral} (h : Rounds x n.negative n.size) :
    readFloat? n.chars = some x := by
  have hx := pack_unpack x
  rw [readFloat?_chars]
  generalize n.negative = b at *
  generalize hq : n.size = q at h
  cases h with
  | zero hunpack =>
    have hd : ofDigits n.digits = 0 := by simpa [Numeral.size, zpow_ne_zero] using hq
    rw [hunpack] at hx
    rw [hd, ofDecimal_zero, signOf_isMinus, hx]
  | finite hunpack hrounds =>
    rw [← hq] at hrounds
    rw [hunpack] at hx
    have hc := canonical_of_unpack hunpack
    have hd := n.ofDigits_pos (hrounds.pos hc)
    rw [ofDecimal_eq _ hd hc hrounds, signOf_isMinus, hx]

/-- **The digits of a float**, and the power of ten that the first one counts: the number is rounded
to the float, and no numeral with fewer digits is. -/
structure Spells (x : Float) (b : Bool) (ds : Digits) (k : ℤ) : Prop where
  leading : ds = .zero ∨ ds.chars.head? ≠ some '0'
  rounds : Rounds x b (ofDigits ds.chars * 10 ^ (k + 1 - ds.chars.length))
  fewest : ∀ n : Numeral, Rounds x n.negative n.size → ds.chars.length ≤ n.digits.length
  range : -331 ≤ k ∧ k < 320

theorem Rounds.roundsTo {x : Float} {m : Nat} {e : Int} {sign : UnpackedFloat.Sign} {hm : 0 < m}
    {q : ℚ} (hunpack : x.toModel.unpack = .finite sign m e hm) (h : Rounds x b q) :
    RoundsTo m e (q / 2 ^ e) := by
  cases h with
  | zero hzero =>
    rw [hunpack] at hzero
    cases hzero
  | finite hfinite hrounds =>
    rw [hunpack] at hfinite
    cases hfinite
    exact hrounds

theorem exists_spells {x : Float} {b : Bool} {m : Nat} {e : Int}
    (h : Binary64.read x = .finite b m e) :
    ∃ (ds : Digits) (k : ℤ), digitsOf m e = (ds.chars, k) ∧ Spells x b ds k := by
  unfold Binary64.read at h
  cases hunpack : x.toModel.unpack with
  | notANumber =>
    rw [hunpack] at h
    cases h
  | infinity sign =>
    rw [hunpack] at h
    cases h
  | zero sign =>
    rw [hunpack] at h
    cases h
    have hzero : (ofDigits Digits.zero.chars *
        10 ^ (0 + 1 - (Digits.zero.chars.length : ℤ)) : ℚ) = 0 := by
      simp [ofDigits, Digits.zero]
    exact ⟨.zero, 0, rfl, .inl rfl, hzero ▸ .zero hunpack, fun n _ => n.length_digits_pos,
      by decide⟩
  | finite sign m e hm =>
    rw [hunpack] at h
    cases h
    have hc := canonical_of_unpack hunpack
    obtain ⟨hpos, hrounds⟩ := roundsTo_shortest hc
    have hrange := hrounds.digits_range hpos hc
    refine ⟨.ofNat (shortest m e).1,
      (shortest m e).2 + (Nat.toDigits 10 (shortest m e).1).length - 1, if_neg hm.ne',
      .inr (Json.head?_toDigits_ne hpos), ?_, fun n hn => ?_, by omega⟩
    · have hexponent : (shortest m e).2 + (Nat.toDigits 10 (shortest m e).1).length - 1 + 1 -
          (Nat.toDigits 10 (shortest m e).1).length = (shortest m e).2 := by omega
      simp only [Digits.ofNat, hexponent, ofDigits_toDigits]
      exact .finite hunpack hrounds
    -- no shorter digits are rounded to the float, and the number of digits is that of the decimal
    · have hn := hn.roundsTo hunpack
      refine (length_shortest_le hc (n.ofDigits_pos (hn.pos hc)) hn).trans ?_
      exact (Nat.length_toDigits_le_iff (by decide) n.length_digits_pos).2
        (ofDigits_lt fun c => n.isDigit_of_mem_digits)

/-- A numeral of the digits of a float is read as the float. -/
theorem Spells.readFloat?_eq {x : Float} {b : Bool} {ds : Digits} {k : ℤ} (h : Spells x b ds k)
    {n : Numeral} (hnegative : n.negative = b)
    (hsize : n.size = ofDigits ds.chars * 10 ^ (k + 1 - ds.chars.length)) :
    readFloat? n.chars = some x := by
  refine readFloat?_of_rounds ?_
  rw [hnegative, hsize]
  exact h.rounds

/-- **A float is read back from its text.** -/
theorem readFloat?_floatRepr (x : Float) : readFloat? (floatRepr x).toList = some x := by
  have hx := pack_unpack x
  have hfinite {b : Bool} {m : Nat} {e : Int} (hread : Binary64.read x = .finite b m e) :
      readFloat? (floatChars templateStyle x) = some x := by
    obtain ⟨ds, k, hdigits, hspells⟩ := exists_spells hread
    obtain ⟨n, hchars, hwritten⟩ := exists_written b ds k
    simp only [floatChars, hread, hdigits, ← hchars]
    exact hspells.readFloat?_eq hwritten.negative hwritten.size_eq
  rw [floatRepr, String.toList_ofList]
  cases hunpack : x.toModel.unpack with
  | notANumber =>
    rw [hunpack] at hx
    rw [floatChars, Binary64.read, hunpack, ← hx]
    rfl
  | infinity sign =>
    rw [hunpack] at hx
    rw [floatChars, Binary64.read, hunpack, ← hx]
    cases sign <;> rfl
  | zero sign => exact hfinite (by rw [Binary64.read, hunpack])
  | finite sign m e hm => exact hfinite (by rw [Binary64.read, hunpack])

/-! ## No bars -/

theorem bar_not_mem_floatRepr (x : Float) : '|' ∉ (floatRepr x).toList := by
  rw [floatRepr, String.toList_ofList, floatChars]
  cases hread : Binary64.read x with
  | nan => decide
  | infinite b => cases b <;> decide
  | finite b m e =>
    obtain ⟨ds, k, hdigits, -⟩ := exists_spells hread
    obtain ⟨n, hchars, -⟩ := exists_written b ds k
    simp only [hdigits, ← hchars]
    intro hbar
    simpa using n.mem_chars hbar

/-! ## No integers -/

theorem isBlank_of_isDigit (h : c.isDigit) : isBlank c = false := by
  have hbounds := isDigit_bounds h
  have hdigit : Number.IsDigit 10 c (c.toNat - 48) :=
    ⟨by omega, .inl ⟨by omega, (Nat.add_sub_of_le hbounds.1).symm⟩⟩
  exact hdigit.isBlank_eq_false

/-- A numeral has no blanks at its ends. -/
theorem Numeral.trim_chars (n : Numeral) : trim n.chars = n.chars := by
  have hfirst : ∃ c, n.chars.head? = some c ∧ isBlank c = false := by
    obtain ⟨c, cs, hcs, hc⟩ := n.whole.exists_cons
    rw [Numeral.chars, hcs]
    cases n.negative with
    | true => exact ⟨'-', rfl, rfl⟩
    | false => exact ⟨c, rfl, isBlank_of_isDigit hc⟩
  -- whatever part comes last, it ends with digits
  have hlast : ∃ front, ∃ ds : Digits, n.chars = front ++ ds.chars := by
    unfold Numeral.chars Numeral.tail
    cases n.exponent with
    | some x =>
      exact ⟨(if n.negative then ['-'] else []) ++ (n.whole.chars ++
        (n.fraction.elim [] (fun f => '.' :: f.chars) ++ 'e' :: x.mark.chars)), x.digits,
        by simp [Exponent.chars]⟩
    | none =>
      cases n.fraction with
      | some f => exact ⟨(if n.negative then ['-'] else []) ++ (n.whole.chars ++ ['.']), f, by simp⟩
      | none => exact ⟨if n.negative then ['-'] else [], n.whole, by simp⟩
  obtain ⟨c, hhead, hc⟩ := hfirst
  obtain ⟨front, ds, hchars⟩ := hlast
  have hlast : n.chars.getLast? = some (ds.chars.getLast ds.ne_nil) := by
    rw [hchars, List.getLast?_append, List.getLast?_eq_some_getLast ds.ne_nil, Option.some_or]
  have hd := isBlank_of_isDigit (ds.isDigit _ (List.getLast_mem ds.ne_nil))
  have htrim : trim ([] ++ n.chars ++ []) = n.chars :=
    trim_between (by simp) hhead hc hlast hd (by simp)
  rwa [List.nil_append, List.append_nil] at htrim

/-- No reader takes a text for an integer: not that of a dump, not that of literals of any base, and
not that of JSON. -/
structure NoInteger (cs : List Char) : Prop where
  dump : readInt? cs = none
  literal : ∀ base w, Number.readLiteral base (String.ofList cs) ≠ .ok w
  json : ∀ v, Json.read (String.ofList cs) = .ok v → ∃ x, v = .float x

theorem readInt?_chars {n : Numeral} (h : n.tail ≠ []) : readInt? n.chars = none := by
  obtain ⟨c, cs, hcs, hc⟩ := n.whole.exists_cons
  obtain ⟨mark, rest, htail⟩ := List.exists_cons_of_ne_nil h
  have hmark : mark.isDigit = false := n.leaves_tail mark (by rw [htail]; rfl)
  have hnone : readNat? (c :: (cs ++ n.tail)) = none := by
    rw [readNat?, if_neg]
    simp [htail, hmark]
  rw [readInt?, Numeral.chars, hcs, List.cons_append, takeSign_digits hc]
  simp only [hnone]
  rfl

theorem Written.noInteger {b : Bool} {ds : Digits} {e : ℤ} {n : Numeral} (h : Written b ds e n) :
    NoInteger n.chars := by
  obtain ⟨mark, rest, htail, hmark⟩ := h.exists_point
  obtain ⟨c, cs, hcs, hc⟩ := n.whole.exists_cons
  refine ⟨readInt?_chars (by simp [htail]), fun base w hread => ?_, fun v hread => ?_⟩
  · obtain ⟨sign, hin, hsign⟩ := h.exists_mark
    rw [Number.readLiteral_eq_ok_iff, Number.isLiteral_iff, String.toList_ofList, n.trim_chars]
      at hread
    unfold Numeral.chars at hread
    cases hn : n.negative with
    | true =>
      rw [hn, if_pos rfl, List.singleton_append] at hread
      exact hread.not_mem hsign (List.mem_append_right _ hin)
    | false =>
      rw [hn, if_neg Bool.false_ne_true, hcs, List.nil_append, List.cons_append] at hread
      exact hread.not_mem hsign (List.mem_append_right _ hin)
  · have htext : trim (String.ofList n.chars).toList =
        (if n.negative then ['-'] else []) ++ (c :: cs ++ mark :: rest) := by
      rw [String.toList_ofList, n.trim_chars, Numeral.chars, hcs, htail]
    exact Json.float_of_read (hcs ▸ n.whole.isDigit) hmark htext hread

/-! ## One step after another -/

/-- An integer of 32 bits. -/
def narrow? (n : ℤ) : Option ℤ := if -0x80000000 ≤ n ∧ n < 0x80000000 then some n else none

/-- The parts of a text before and behind a position, if the text reaches it. -/
def cut? (k : ℕ) (cs : List Char) : Option (List Char × List Char) :=
  if k ≤ cs.length then some (cs.take k, cs.drop k) else none

/-- The positional text, step by step. The result is missing if a step wraps, or if a position does
not lie in the text. -/
def trappingPositional (digits : List Char) (e : ℤ) : Option (List Char) :=
  if 0 ≤ e then
    let point := e.toNat + 1
    if digits.length ≤ point then
      some (digits ++ List.replicate (point - digits.length) '0' ++ ['.', '0'])
    else do
      let (whole, fraction) ← cut? point digits
      return whole ++ '.' :: fraction
  else do
    let zeros ← narrow? ((← narrow? (-e)) - 1)
    if 0 ≤ zeros then return '0' :: '.' :: (List.replicate zeros.toNat '0' ++ digits) else none

/-- The scientific text, step by step. -/
def trappingScientific (digits : List Char) (e : ℤ) : Option (List Char) := do
  let (first, others) ← cut? 1 digits
  let size ← narrow? e.natAbs
  return (if others = [] then first else first ++ '.' :: others) ++
    'e' :: (if e < 0 then '-' else '+') :: padLeft '0' 2 (Nat.toDigits 10 size.toNat)

/-- The text of a float from its scientific text, step by step: the exponent is what follows the
first `e`, and the digits are what else is left without a minus and a point. -/
def trappingText (text : List Char) : Option (List Char) :=
  let e := ((readInt? ((text.dropWhile (· ≠ 'e')).drop 1)).bind narrow?).getD 0
  let (sign, mantissa) := match text.takeWhile (· ≠ 'e') with
    | '-' :: rest => (['-'], rest)
    | mantissa => ([], mantissa)
  let digits := mantissa.filter (· ≠ '.')
  let body := if -4 ≤ e ∧ e < 16 then trappingPositional digits e else trappingScientific digits e
  body.map (sign ++ ·)

theorem narrow?_eq {n : ℤ} (hlow : -0x80000000 ≤ n) (hhigh : n < 0x80000000) :
    narrow? n = some n := if_pos ⟨hlow, hhigh⟩

theorem trappingPositional_eq {e : ℤ} (ds : List Char) (hlow : -4 ≤ e) (hhigh : e < 16) :
    trappingPositional ds e = some (positionalText true ds e) := by
  unfold trappingPositional positionalText
  by_cases he : 0 ≤ e
  · rw [if_pos he, if_neg (not_lt.2 he)]
    simp only []
    by_cases hlength : ds.length ≤ e.toNat + 1
    · rw [if_pos hlength, if_pos hlength]
      rfl
    · rw [if_neg hlength, if_neg hlength, cut?, if_pos (by omega)]
      rfl
  · have hneg : narrow? (-e) = some (-e) := narrow?_eq (by omega) (by omega)
    have hzeros : narrow? (-e - 1) = some (-e - 1) := narrow?_eq (by omega) (by omega)
    have hnonneg : 0 ≤ -e - 1 := by omega
    rw [if_neg he, if_pos (not_le.1 he), hneg]
    simp only [Option.bind_eq_bind, Option.bind_some, hzeros, if_pos hnonneg]
    rfl

theorem trappingScientific_eq {e : ℤ} (ds : Digits) (hlow : -0x80000000 < e)
    (hhigh : e < 0x80000000) :
    trappingScientific ds.chars e = some (scientificText ds.chars e) := by
  obtain ⟨d, rest, hds, -⟩ := ds.exists_cons
  have hsize : narrow? e.natAbs = some (e.natAbs : ℤ) := narrow?_eq (by omega) (by omega)
  rw [trappingScientific, hds, cut?, if_pos (by simp), hsize]
  simp only [Option.bind_eq_bind, Option.bind_some, Int.toNat_natCast]
  cases rest <;> rfl

/-- What stands in front of the exponent. -/
theorem Numeral.exists_mantissa (n : Numeral) : ∃ mantissa,
    n.chars = (if n.negative then ['-'] else []) ++ mantissa ++ n.exponent.elim [] Exponent.chars ∧
      mantissa.filter (· ≠ '.') = n.digits ∧ ∀ c ∈ mantissa, c ≠ '-' ∧ c ≠ 'e' := by
  have hne (ds : Digits) {x : Char} (hx : x.isDigit = false) : ∀ c ∈ ds.chars, c ≠ x :=
    fun c hc => ne_of_isDigit (ds.isDigit c hc) hx
  have hfilter (ds : Digits) : ds.chars.filter (· ≠ '.') = ds.chars :=
    List.filter_eq_self.2 fun c hc => decide_eq_true (hne ds rfl c hc)
  have hdigits (ds : Digits) : ∀ c ∈ ds.chars, c ≠ '-' ∧ c ≠ 'e' :=
    fun c hc => ⟨hne ds rfl c hc, hne ds rfl c hc⟩
  unfold Numeral.chars Numeral.tail Numeral.digits
  cases n.fraction with
  | none => exact ⟨n.whole.chars, by simp, by simpa using hfilter n.whole, hdigits n.whole⟩
  | some f =>
    refine ⟨n.whole.chars ++ '.' :: f.chars, by simp, ?_, fun c hc => ?_⟩
    · rw [List.filter_append, List.filter_cons_of_neg (by simp), hfilter, hfilter]
      rfl
    · rcases List.mem_append.1 hc with hc | hc
      · exact hdigits n.whole c hc
      rcases List.mem_cons.1 hc with rfl | hc
      · decide
      · exact hdigits f c hc

/-- The text of a numeral is taken apart into its sign, its digits and its exponent. -/
theorem trappingText_chars (n : Numeral) (hpower : narrow? n.power = some n.power) :
    trappingText n.chars =
      (if -4 ≤ n.power ∧ n.power < 16 then trappingPositional n.digits n.power
        else trappingScientific n.digits n.power).map
          ((if n.negative then ['-'] else []) ++ ·) := by
  obtain ⟨mantissa, hchars, hdigits, hmem⟩ := n.exists_mantissa
  have hfront : ∀ c ∈ (if n.negative then ['-'] else []) ++ mantissa, decide (c ≠ 'e') := by
    intro c hc
    rcases List.mem_append.1 hc with hc | hc
    · split at hc
      · rw [List.mem_singleton.1 hc]
        rfl
      · cases hc
    · exact decide_eq_true (hmem c hc).2
  -- no part before the exponent has its letter, so the first one is the mark
  have hleaves : Leaves (fun c => decide (c ≠ 'e')) (n.exponent.elim [] Exponent.chars) := by
    cases n.exponent with
    | none => exact leaves_nil
    | some x => exact .cons rfl _
  have hexponent : ((readInt? ((n.exponent.elim [] Exponent.chars).drop 1)).bind narrow?).getD 0 =
      n.power := by
    have hread := readExponent?_chars n.exponent
    unfold Numeral.power at hpower ⊢
    cases hx : n.exponent with
    | none => rfl
    | some x =>
      rw [hx] at hread hpower
      rw [Option.elim_some, Exponent.chars, readExponent?, if_pos (.inl rfl)] at hread
      rw [Option.elim_some, Exponent.chars, List.drop_one, List.tail_cons, hread]
      simp only [Option.elim_some] at hpower ⊢
      rw [Option.bind_some, hpower, Option.getD_some]
  have hsign : (match (if n.negative then ['-'] else []) ++ mantissa with
      | '-' :: rest => (['-'], rest)
      | mantissa => ([], mantissa)) = (if n.negative then ['-'] else [], mantissa) := by
    cases n.negative with
    | true => rfl
    | false =>
      rw [if_neg Bool.false_ne_true, List.nil_append]
      split
      next rest => exact absurd rfl (hmem '-' List.mem_cons_self).1
      next => rfl
  rw [trappingText, hchars, takeWhile_append_of_leaves hfront hleaves,
    dropWhile_append_of_leaves hfront hleaves, hexponent, hsign]
  simp only [hdigits]

/-- **No step of the text of a float traps.** -/
theorem trappingText_eq (b : Bool) (ds : Digits) {e : ℤ} (hlow : -0x80000000 < e)
    (hhigh : e < 0x80000000) :
    trappingText (Numeral.scientific b ds (.plain e)).chars =
      some (layout templateStyle b ds.chars e) := by
  have hpower : (Numeral.scientific b ds (.plain e)).power = e := Exponent.value_plain e
  rw [trappingText_chars _ (by rw [hpower]; exact narrow?_eq hlow.le hhigh), hpower,
    layout_templateStyle, Numeral.scientific, Numeral.digits_split]
  by_cases he : -4 ≤ e ∧ e < 16
  · rw [if_pos he, if_pos he, trappingPositional_eq ds.chars he.1 he.2]
    rfl
  · rw [if_neg he, if_neg he, trappingScientific_eq ds hlow hhigh]
    rfl

/-! ## All digits and all floats -/

end Decimal

open Decimal

/-- **The text of a float names the number of its digits.** Whatever the sign, the digits and the
power of ten of the first one, the text is a numeral of the same number as the scientific text of
the digits. It is positional for powers from -4 to 15 and scientific for all others, keeps all
digits and adds no zeros but those up to the point and one behind it (`Positional`, `Scientific`).
It has a point or an exponent, so no reader takes it for an integer, and no step of making it from
the scientific text traps. The text of a finite float is that of the fewest digits that are rounded
to it, whose scientific text is read as the float. -/
theorem float_texts_keep_number :
    (∀ (b : Bool) (ds : Digits) (e : ℤ), ∃ n : Numeral,
      n.chars = layout templateStyle b ds.chars e ∧ Written b ds e n ∧
      (∀ q, Denotes n.chars q ↔ Denotes (Numeral.scientific b ds (.plain e)).chars q) ∧
      ('.' ∈ n.chars ∨ 'e' ∈ n.chars) ∧ NoInteger n.chars) ∧
    (∀ (b : Bool) (ds : Digits) (e : ℤ), -0x80000000 < e → e < 0x80000000 →
      trappingText (Numeral.scientific b ds (.plain e)).chars =
        some (layout templateStyle b ds.chars e)) ∧
    ∀ (x : Float) (b : Bool) (m : ℕ) (e : ℤ), Binary64.read x = .finite b m e →
      ∃ (ds : Digits) (k : ℤ), Spells x b ds k ∧
        readFloat? (Numeral.scientific b ds (.plain k)).chars = some x ∧
        (floatRepr x).toList = layout templateStyle b ds.chars k := by
  refine ⟨fun b ds e => ?_, fun b ds e hlow hhigh => trappingText_eq b ds hlow hhigh,
    fun x b m e hread => ?_⟩
  · obtain ⟨n, hchars, hwritten⟩ := exists_written b ds e
    refine ⟨n, hchars, hwritten, fun q => ?_, ?_, hwritten.noInteger⟩
    · rw [n.denotes_iff, Numeral.denotes_iff, hwritten.value_eq (Exponent.value_plain e)]
    · obtain ⟨mark, rest, htail, hmark⟩ := hwritten.exists_point
      have hmem : mark ∈ n.chars := by simp [Numeral.chars, htail]
      rcases hmark with rfl | rfl
      · exact .inl hmem
      · exact .inr hmem
  · obtain ⟨ds, k, hdigits, hspells⟩ := exists_spells hread
    refine ⟨ds, k, hspells, hspells.readFloat?_eq rfl ?_, ?_⟩
    · rw [Numeral.size_scientific, Exponent.value_plain]
    · simp only [floatRepr, String.toList_ofList, floatChars, hread, hdigits]

/-- A negative float of a small power, and digits of the least power above all positional ones. -/
theorem float_texts_keep_number_scientific :
    let x := Float.ofBits 0xBEEF75104D551D69
    (-0x80000000 < (16 : ℤ) ∧ (16 : ℤ) < 0x80000000 ∧
      trappingText "-2.5e16".toList = some "-2.5e+16".toList) ∧
    Binary64.read x = .finite true 0x1F75104D551D69 (-69) ∧
    ∃ (ds : Digits) (k : ℤ), Spells x true ds k ∧
      readFloat? (Numeral.scientific true ds (.plain k)).chars = some x ∧
      "-1.5e-05".toList = layout templateStyle true ds.chars k := by
  intro x
  have hread : Binary64.read (Float.ofBits 0xBEEF75104D551D69) =
      .finite true 0x1F75104D551D69 (-69) := by decide
  have htext : (floatRepr x).toList = "-1.5e-05".toList := by decide +kernel
  obtain ⟨-, hsteps, hfloats⟩ := float_texts_keep_number
  refine ⟨⟨by decide, by decide, hsteps true ⟨['2', '5'], by simp, by simp⟩ 16 (by decide)
    (by decide)⟩, hread, ?_⟩
  rw [← htext]
  exact hfloats x true _ _ hread

end Templating
