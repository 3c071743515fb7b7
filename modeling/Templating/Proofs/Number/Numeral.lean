import Templating.Proofs.Text.Apart

/-!
# Decimal numerals

A numeral is a sign, digits with an optional point among them, and an optional exponent.

* `Digits`, `Exponent`, `Numeral`: numerals and their parts, and how they are written.
* `Numeral.value`: the number that a numeral denotes.
* `Numeral.chars_injective`, `Denotes.unique`: **a text is read as a numeral in one way.**
* `Numeral.scientific`, `Numeral.positional`: digits of which the first one counts a power of ten,
  with an exponent and without.
* `Positional`, `Scientific`, `Written`: what is kept of such digits, and where zeros are added.
* `Written.value_eq`: **the number stays the same.**
* `exists_written`: **a float is written as such a numeral.**
-/

namespace Templating.Decimal

open Text

/-! ## Numerals -/

/-- Decimal digits, at least one. -/
@[ext]
structure Digits where
  chars : List Char
  ne_nil : chars ≠ []
  isDigit : ∀ c ∈ chars, c.isDigit

/-- The sign of an exponent as it is written. -/
inductive Mark where
  | none
  | plus
  | minus

/-- An exponent as it is written. -/
structure Exponent where
  mark : Mark
  digits : Digits

/-- A decimal numeral: digits in front of the point, digits behind it if there is a point, and an
exponent if there is one. -/
@[ext]
structure Numeral where
  negative : Bool
  whole : Digits
  fraction : Option Digits
  exponent : Option Exponent

def Mark.chars : Mark → List Char
  | .none => []
  | .plus => ['+']
  | .minus => ['-']

namespace Exponent

def chars (x : Exponent) : List Char := 'e' :: (x.mark.chars ++ x.digits.chars)

/-- The power of ten that an exponent stands for. -/
def value (x : Exponent) : ℤ :=
  match x.mark with
  | .minus => -(ofDigits x.digits.chars : ℤ)
  | _ => ofDigits x.digits.chars

end Exponent

namespace Numeral

/-- What is written behind the digits in front of the point. -/
def tail (n : Numeral) : List Char :=
  n.fraction.elim [] (fun f => '.' :: f.chars) ++ n.exponent.elim [] Exponent.chars

def chars (n : Numeral) : List Char :=
  (if n.negative then ['-'] else []) ++ (n.whole.chars ++ n.tail)

/-- The digits in front of the point and behind it. -/
def digits (n : Numeral) : List Char := n.whole.chars ++ n.fraction.elim [] Digits.chars

/-- The power of ten of the exponent. -/
def power (n : Numeral) : ℤ := n.exponent.elim 0 Exponent.value

/-- The power of ten that the last digit counts. -/
def unit (n : Numeral) : ℤ := n.power - (n.fraction.elim [] Digits.chars).length

/-- The number that a numeral denotes, without its sign. -/
def size (n : Numeral) : ℚ := ofDigits n.digits * 10 ^ n.unit

/-- The number that a numeral denotes. -/
def value (n : Numeral) : ℚ := (if n.negative then -1 else 1) * n.size

end Numeral

theorem Numeral.isDigit_of_mem_digits {n : Numeral} {c : Char} (h : c ∈ n.digits) : c.isDigit := by
  rcases List.mem_append.1 h with h | h
  · exact n.whole.isDigit c h
  · cases hf : n.fraction with
    | none => simp [hf] at h
    | some f =>
      rw [hf] at h
      exact f.isDigit c h

theorem Numeral.length_digits_pos (n : Numeral) : 0 < n.digits.length :=
  List.length_pos_iff.2 (List.append_ne_nil_of_left_ne_nil n.whole.ne_nil _)

/-- The characters of numerals. -/
theorem Numeral.mem_chars {n : Numeral} {c : Char} (h : c ∈ n.chars) :
    c.isDigit ∨ c ∈ ['-', '+', '.', 'e'] := by
  rcases List.mem_append.1 h with h | h
  · split at h
    · simp [List.mem_singleton.1 h]
    · cases h
  rcases List.mem_append.1 h with h | h
  · exact .inl (n.whole.isDigit c h)
  rcases List.mem_append.1 h with h | h
  · cases hf : n.fraction with
    | none => simp [hf] at h
    | some f =>
      rw [hf] at h
      rcases List.mem_cons.1 h with rfl | h
      · simp
      · exact .inl (f.isDigit c h)
  · cases hx : n.exponent with
    | none => simp [hx] at h
    | some x =>
      rw [hx] at h
      rcases List.mem_cons.1 h with rfl | h
      · simp
      rcases List.mem_append.1 h with h | h
      · cases hmark : x.mark <;> rw [hmark] at h <;> simp_all [Mark.chars]
      · exact .inl (x.digits.isDigit c h)

/-! ## One way to read a text -/

variable {c : Char} {cs r r' : List Char}

theorem Digits.exists_cons (ds : Digits) : ∃ c cs, ds.chars = c :: cs ∧ c.isDigit := by
  obtain ⟨c, cs, h⟩ := List.exists_cons_of_ne_nil ds.ne_nil
  exact ⟨c, cs, h, ds.isDigit c (h ▸ List.mem_cons_self)⟩

/-- Digits do not begin with anything but a digit. -/
theorem Digits.append_ne (ds : Digits) (hc : c.isDigit = false) : ds.chars ++ r ≠ c :: cs := by
  obtain ⟨d, rest, hds, hd⟩ := ds.exists_cons
  rw [hds]
  exact fun h => ne_of_isDigit hd hc (List.cons.inj h).1

theorem Digits.append_inj {ds ds' : Digits} (hr : Leaves Char.isDigit r)
    (hr' : Leaves Char.isDigit r') (h : ds.chars ++ r = ds'.chars ++ r') : ds = ds' ∧ r = r' := by
  obtain ⟨hchars, hrest⟩ := toldApart_run ds.isDigit ds'.isDigit hr hr' h
  exact ⟨Digits.ext hchars, hrest⟩

theorem leaves_nil {p : Char → Bool} : Leaves p [] := nofun

theorem leaves_exponent (x : Option Exponent) :
    Leaves Char.isDigit (x.elim [] Exponent.chars) := by
  cases x with
  | none => exact leaves_nil
  | some x => exact .cons rfl _

theorem Numeral.leaves_tail (n : Numeral) : Leaves Char.isDigit n.tail := by
  unfold Numeral.tail
  cases n.fraction with
  | none => exact leaves_exponent n.exponent
  | some f => exact .cons rfl _

theorem Exponent.chars_injective {x x' : Exponent} (h : x.chars = x'.chars) : x = x' := by
  obtain ⟨mark, ds⟩ := x
  obtain ⟨mark', ds'⟩ := x'
  have hmarks : mark.chars ++ ds.chars = mark'.chars ++ ds'.chars := (List.cons.inj h).2
  have hne (ds : Digits) {c : Char} {cs : List Char} (hc : c.isDigit = false) :
      ds.chars ≠ c :: cs := by
    have hcons : ds.chars ++ [] ≠ c :: cs := ds.append_ne hc
    rwa [List.append_nil] at hcons
  -- a sign is no digit
  cases mark <;> cases mark' <;> simp only [Mark.chars, List.nil_append, List.cons_append] at hmarks
  case none.none => rw [Digits.ext hmarks]
  case plus.plus => rw [Digits.ext (List.cons.inj hmarks).2]
  case minus.minus => rw [Digits.ext (List.cons.inj hmarks).2]
  case none.plus => exact absurd hmarks (hne ds rfl)
  case none.minus => exact absurd hmarks (hne ds rfl)
  case plus.none => exact absurd hmarks.symm (hne ds' rfl)
  case minus.none => exact absurd hmarks.symm (hne ds' rfl)
  case plus.minus => cases (List.cons.inj hmarks).1
  case minus.plus => cases (List.cons.inj hmarks).1

/-- What follows the first digits has one point and one exponent. -/
theorem Numeral.tail_injective {n n' : Numeral} (h : n.tail = n'.tail) :
    n.fraction = n'.fraction ∧ n.exponent = n'.exponent := by
  obtain ⟨_, _, fraction, exponent⟩ := n
  obtain ⟨_, _, fraction', exponent'⟩ := n'
  simp only [Numeral.tail] at h ⊢
  have hexponents {x x' : Option Exponent}
      (h : x.elim [] Exponent.chars = x'.elim [] Exponent.chars) : x = x' := by
    match x, x' with
    | none, none => rfl
    | none, some _ => cases h
    | some _, none => cases h
    | some _, some _ => rw [Exponent.chars_injective h]
  -- an exponent does not begin with a point
  have hpoint (x : Option Exponent) (cs : List Char) : x.elim [] Exponent.chars ≠ '.' :: cs := by
    cases x with
    | none => exact (List.cons_ne_nil _ _).symm
    | some x => exact fun h => absurd (List.cons.inj h).1 (by decide)
  cases fraction <;> cases fraction' <;>
    simp only [Option.elim_none, Option.elim_some, List.nil_append, List.cons_append] at h
  case none.none => exact ⟨rfl, hexponents h⟩
  case none.some => exact absurd h (hpoint _ _)
  case some.none => exact absurd h.symm (hpoint _ _)
  case some.some f f' =>
    obtain ⟨rfl, hrest⟩ := Digits.append_inj (leaves_exponent _) (leaves_exponent _)
      (List.cons.inj h).2
    exact ⟨rfl, hexponents hrest⟩

/-- **A text is read as a numeral in one way.** -/
theorem Numeral.chars_injective {n n' : Numeral} (h : n.chars = n'.chars) : n = n' := by
  have hsigns : n.negative = n'.negative := by
    unfold Numeral.chars at h
    cases hn : n.negative <;> cases hn' : n'.negative <;> rw [hn, hn'] at h
    case false.true => exact absurd h (n.whole.append_ne rfl)
    case true.false => exact absurd h.symm (n'.whole.append_ne rfl)
  have hbodies : n.whole.chars ++ n.tail = n'.whole.chars ++ n'.tail := by
    unfold Numeral.chars at h
    rw [hsigns] at h
    exact List.append_cancel_left h
  obtain ⟨hwholes, htails⟩ := Digits.append_inj n.leaves_tail n'.leaves_tail hbodies
  obtain ⟨hfractions, hexponents⟩ := Numeral.tail_injective htails
  exact Numeral.ext hsigns hwholes hfractions hexponents

/-- A text denotes a number. -/
def Denotes (cs : List Char) (q : ℚ) : Prop := ∃ n : Numeral, n.chars = cs ∧ n.value = q

/-- **A text denotes one number only.** -/
theorem Denotes.unique {q q' : ℚ} (h : Denotes cs q) (h' : Denotes cs q') : q = q' := by
  obtain ⟨n, rfl, rfl⟩ := h
  obtain ⟨n', hchars, rfl⟩ := h'
  rw [Numeral.chars_injective hchars]

theorem Numeral.denotes_iff (n : Numeral) {q : ℚ} : Denotes n.chars q ↔ n.value = q :=
  ⟨fun h => Denotes.unique ⟨n, rfl, rfl⟩ h, fun h => ⟨n, rfl, h⟩⟩

/-! ## Digits and a power of ten -/

namespace Digits

def zero : Digits := ⟨['0'], List.cons_ne_nil _ _, by simp⟩

def ofNat (n : ℕ) : Digits where
  chars := Nat.toDigits 10 n
  ne_nil := Nat.toDigits_ne_nil
  isDigit _ := isDigit_of_mem_toDigits

/-- Zeros around digits. -/
def pad (a c : ℕ) (ds : Digits) : Digits where
  chars := List.replicate a '0' ++ ds.chars ++ List.replicate c '0'
  ne_nil := by simp [ds.ne_nil]
  isDigit := by
    have hzero {d : Char} {k : ℕ} (hd : d ∈ List.replicate k '0') : d.isDigit := by
      rw [List.eq_of_mem_replicate hd]
      rfl
    intro d hd
    rcases List.mem_append.1 hd with hd | hd
    · exact (List.mem_append.1 hd).elim hzero (ds.isDigit d)
    · exact hzero hd

/-- The digits up to a position, the first one at least. -/
def upTo (ds : Digits) (k : ℕ) : Digits where
  chars := ds.chars.take (k + 1)
  ne_nil := by simp [ds.ne_nil]
  isDigit d hd := ds.isDigit d (List.mem_of_mem_take hd)

/-- The digits behind a position, if there are any. -/
def behind (ds : Digits) (k : ℕ) : Option Digits :=
  if h : ds.chars.drop (k + 1) = [] then none
  else some ⟨ds.chars.drop (k + 1), h, fun d hd => ds.isDigit d (List.mem_of_mem_drop hd)⟩

theorem length_pos (ds : Digits) : 0 < ds.chars.length := List.length_pos_iff.2 ds.ne_nil

theorem length_pad (a c : ℕ) (ds : Digits) :
    (ds.pad a c).chars.length = a + ds.chars.length + c := by
  simp [pad, add_assoc]

theorem length_upTo (ds : Digits) (k : ℕ) :
    (ds.upTo k).chars.length = min (k + 1) ds.chars.length := List.length_take

/-- The digits behind a position, in a text that depends on whether there are any. -/
theorem elim_behind (ds : Digits) (k : ℕ) (f : List Char → List Char) :
    (ds.behind k).elim [] (fun ds => f ds.chars) =
      if ds.chars.drop (k + 1) = [] then [] else f (ds.chars.drop (k + 1)) := by
  unfold behind
  split <;> rfl

end Digits

namespace Exponent

/-- An exponent without a plus and without zeros. -/
def plain (e : ℤ) : Exponent := ⟨if e < 0 then .minus else .none, .ofNat e.natAbs⟩

/-- An exponent with its sign and at least two digits. -/
def wide (e : ℤ) : Exponent :=
  ⟨if e < 0 then .minus else .plus,
    (Digits.ofNat e.natAbs).pad (2 - (Nat.toDigits 10 e.natAbs).length) 0⟩

theorem value_eq {x : Exponent} {e : ℤ} (hmark : x.mark = .minus ↔ e < 0)
    (hdigits : ofDigits x.digits.chars = e.natAbs) : x.value = e := by
  by_cases h : e < 0
  · simp only [value, hmark.2 h, hdigits]
    omega
  · have hplus : x.value = ofDigits x.digits.chars := by
      unfold value
      split
      next hminus => exact absurd (hmark.1 hminus) h
      next => rfl
    rw [hplus, hdigits]
    omega

@[simp] theorem value_plain (e : ℤ) : (plain e).value = e :=
  value_eq (by simp [plain]) (ofDigits_toDigits _)

@[simp] theorem value_wide (e : ℤ) : (wide e).value = e :=
  value_eq (by simp [wide]) (by simp [wide, Digits.pad, Digits.ofNat, ofDigits_append])

end Exponent

namespace Numeral

variable {n : Numeral} {b : Bool} {ds : Digits} {e : ℤ} {x : Exponent}

/-- Digits with a point behind a position, unless there are no digits behind it. -/
def split (b : Bool) (ds : Digits) (k : ℕ) (x : Option Exponent) : Numeral :=
  ⟨b, ds.upTo k, ds.behind k, x⟩

/-- The first digit, the others behind the point, and an exponent. -/
def scientific (b : Bool) (ds : Digits) (x : Exponent) : Numeral := split b ds 0 (some x)

/-- Digits without an exponent, the first of which counts `10 ^ e`. -/
def positional (b : Bool) (ds : Digits) (e : ℤ) : Numeral :=
  if e < 0 then ⟨b, .zero, some (ds.pad (-e - 1).toNat 0), none⟩
  else if ds.chars.length ≤ e.toNat + 1 then
    ⟨b, ds.pad 0 (e.toNat + 1 - ds.chars.length), some .zero, none⟩
  else split b ds e.toNat none

@[simp] theorem digits_split (b : Bool) (ds : Digits) (k : ℕ) (x : Option Exponent) :
    (split b ds k x).digits = ds.chars := by
  have hbehind := ds.elim_behind k id
  simp only [id] at hbehind
  rw [digits, split, hbehind, Digits.upTo]
  split <;> simp_all

end Numeral

/-- **What is kept in a positional text of digits, the first of which counts `10 ^ e`:** all digits,
with zeros up to the point and one behind it if no digit would stand there. -/
structure Positional (ds : Digits) (e : ℤ) (n : Numeral) : Prop where
  exponent : n.exponent = none
  whole : (n.whole.chars.length : ℤ) = max 1 (e + 1)
  digits : n.digits = List.replicate (-e).toNat '0' ++ ds.chars ++
    (List.replicate (e + 1 - ds.chars.length).toNat '0' ++
      if ds.chars.length ≤ e + 1 then ['0'] else [])
  point : n.fraction.isSome

/-- **What is kept in a scientific text:** all digits, the first of them in front of the point, and
an exponent with its sign and at least two digits. -/
structure Scientific (ds : Digits) (e : ℤ) (n : Numeral) : Prop where
  whole : n.whole.chars.length = 1
  digits : n.digits = ds.chars
  exponent : ∃ x, n.exponent = some x ∧ x.value = e ∧
    x.mark = (if e < 0 then .minus else .plus) ∧
    x.digits.chars = padLeft '0' 2 (Nat.toDigits 10 e.natAbs)

namespace Numeral

variable {n : Numeral} {b : Bool} {ds : Digits} {e : ℤ} {x : Exponent}

theorem positional_spec (b : Bool) (ds : Digits) (e : ℤ) : Positional ds e (positional b ds e) := by
  have hlength := ds.length_pos
  unfold positional
  split
  next he =>
    -- all digits stand behind the point
    have hwhole : ((1 : ℕ) : ℤ) = max 1 (e + 1) := by omega
    have hzeros : (-e).toNat = (-e - 1).toNat + 1 := by omega
    have hback : (e + 1 - ds.chars.length).toNat = 0 := by omega
    refine ⟨rfl, hwhole, ?_, rfl⟩
    rw [hzeros, hback, if_neg (by omega), List.replicate_succ]
    simp [digits, Digits.zero, Digits.pad]
  have hfront : (-e).toNat = 0 := by omega
  split
  next he hle =>
    -- all digits stand in front of the point
    have hwhole : ((ds.pad 0 (e.toNat + 1 - ds.chars.length)).chars.length : ℤ) =
        max 1 (e + 1) := by
      rw [Digits.length_pad]
      omega
    have hzeros : (e + 1 - ds.chars.length).toNat = e.toNat + 1 - ds.chars.length := by omega
    refine ⟨rfl, hwhole, ?_, rfl⟩
    rw [hfront, hzeros, if_pos (by omega)]
    simp [digits, Digits.zero, Digits.pad]
  next he hlt =>
    -- the point stands between the digits
    have hwhole : ((ds.upTo e.toNat).chars.length : ℤ) = max 1 (e + 1) := by
      rw [Digits.length_upTo]
      omega
    have hback : (e + 1 - ds.chars.length).toNat = 0 := by omega
    refine ⟨rfl, hwhole, ?_, ?_⟩
    · rw [hfront, hback, if_neg (by omega), digits_split]
      simp
    · rw [split, Digits.behind, dif_neg (by simpa using hlt)]
      rfl

theorem length_whole_scientific (b : Bool) (ds : Digits) (x : Exponent) :
    (scientific b ds x).whole.chars.length = 1 :=
  (ds.length_upTo 0).trans (Nat.min_eq_left ds.length_pos)

theorem scientific_spec (b : Bool) (ds : Digits) (e : ℤ) :
    Scientific ds e (scientific b ds (.wide e)) := by
  refine ⟨length_whole_scientific b ds _, digits_split .., .wide e, rfl, Exponent.value_wide e,
    rfl, ?_⟩
  simp [Exponent.wide, Digits.pad, Digits.ofNat, padLeft]

/-! ### The number is the same -/

/-- Zeros around digits do not change the number, if the point stands where it did. -/
theorem size_eq {a c : ℕ}
    (hdigits : n.digits = List.replicate a '0' ++ ds.chars ++ List.replicate c '0')
    (hpoint : n.power + n.whole.chars.length = e + 1 + a) :
    n.size = ofDigits ds.chars * 10 ^ (e + 1 - ds.chars.length) := by
  have hlength : (n.digits.length : ℤ) = a + ds.chars.length + c := by
    rw [hdigits]
    simp [add_assoc]
  have hfraction : (n.digits.length : ℤ) =
      n.whole.chars.length + (n.fraction.elim [] Digits.chars).length := by
    rw [digits, List.length_append, Nat.cast_add]
  have hunit : e + 1 - ds.chars.length = c + n.unit := by
    unfold unit
    omega
  have hnumber : ofDigits n.digits = 10 ^ c * ofDigits ds.chars := by
    rw [hdigits, ofDigits_append, ofDigits_append]
    simp
  rw [size, hunit, zpow_add₀ (by norm_num), hnumber, zpow_natCast]
  push_cast
  ring

/-- The same if only the first digit stands in front of the point. -/
theorem size_eq_of_length (hwhole : n.whole.chars.length = 1) (hdigits : n.digits = ds.chars) :
    n.size = ofDigits ds.chars * 10 ^ (n.power + 1 - ds.chars.length) := by
  refine size_eq (a := 0) (c := 0) (by simp [hdigits]) ?_
  rw [hwhole]
  simp

theorem size_scientific (b : Bool) (ds : Digits) (x : Exponent) :
    (scientific b ds x).size = ofDigits ds.chars * 10 ^ (x.value + 1 - ds.chars.length) :=
  size_eq_of_length (length_whole_scientific b ds x) (digits_split ..)

end Numeral

section

variable {n : Numeral} {b : Bool} {ds : Digits} {e : ℤ}

theorem Positional.size_eq (h : Positional ds e n) :
    n.size = ofDigits ds.chars * 10 ^ (e + 1 - ds.chars.length) := by
  -- the zero behind the point is one more of those in front of it
  have hzeros : ∃ c, List.replicate (e + 1 - ds.chars.length).toNat '0' ++
      (if ds.chars.length ≤ e + 1 then ['0'] else []) = List.replicate c '0' := by
    split
    · exact ⟨_, List.replicate_succ'.symm⟩
    · exact ⟨_, List.append_nil _⟩
  obtain ⟨c, hc⟩ := hzeros
  have hpower : n.power = 0 := by rw [Numeral.power, h.exponent, Option.elim_none]
  have hpoint : n.power + n.whole.chars.length = e + 1 + (-e).toNat := by
    rw [hpower, h.whole]
    omega
  exact Numeral.size_eq (hc ▸ h.digits) hpoint

theorem Scientific.size_eq (h : Scientific ds e n) :
    n.size = ofDigits ds.chars * 10 ^ (e + 1 - ds.chars.length) := by
  obtain ⟨x, hx, hvalue, -, -⟩ := h.exponent
  have hpower : n.power = e := by rw [Numeral.power, hx, Option.elim_some, hvalue]
  rw [Numeral.size_eq_of_length h.whole h.digits, hpower]

/-- **How a float is written:** positional if its first digit counts `10 ^ -4` to `10 ^ 15`, and
scientific otherwise. -/
structure Written (b : Bool) (ds : Digits) (e : ℤ) (n : Numeral) : Prop where
  negative : n.negative = b
  positional : -4 ≤ e ∧ e < 16 → Positional ds e n
  scientific : ¬ (-4 ≤ e ∧ e < 16) → Scientific ds e n

theorem Written.size_eq (h : Written b ds e n) :
    n.size = ofDigits ds.chars * 10 ^ (e + 1 - ds.chars.length) := by
  by_cases he : -4 ≤ e ∧ e < 16
  · exact (h.positional he).size_eq
  · exact (h.scientific he).size_eq

/-- **The number is that of the digits and the exponent.** -/
theorem Written.value_eq (h : Written b ds e n) {x : Exponent} (hx : x.value = e) :
    n.value = (Numeral.scientific b ds x).value := by
  have hnegative : (Numeral.scientific b ds x).negative = b := rfl
  rw [Numeral.value, Numeral.value, h.size_eq, Numeral.size_scientific, h.negative, hnegative, hx]

/-- Behind the first digit stands a point or a sign. -/
theorem Written.exists_mark (h : Written b ds e n) : ∃ c ∈ n.tail, c ∈ ['.', '+', '-'] := by
  by_cases he : -4 ≤ e ∧ e < 16
  · obtain ⟨f, hf⟩ := Option.isSome_iff_exists.1 (h.positional he).point
    exact ⟨'.', by simp [Numeral.tail, hf], by simp⟩
  · obtain ⟨x, hx, -, hmark, -⟩ := (h.scientific he).exponent
    refine ⟨if e < 0 then '-' else '+', ?_, by split <;> simp⟩
    rw [Numeral.tail, hx, Option.elim_some, Exponent.chars, hmark]
    split <;> simp [Mark.chars]

/-- There is a point or an exponent. -/
theorem Written.exists_point (h : Written b ds e n) :
    ∃ c cs, n.tail = c :: cs ∧ (c = '.' ∨ c = 'e') := by
  by_cases he : -4 ≤ e ∧ e < 16
  · obtain ⟨f, hf⟩ := Option.isSome_iff_exists.1 (h.positional he).point
    rw [Numeral.tail, hf]
    exact ⟨'.', _, rfl, .inl rfl⟩
  · obtain ⟨x, hx, -, hmark, -⟩ := (h.scientific he).exponent
    rw [Numeral.tail, hx]
    cases n.fraction with
    | none => exact ⟨'e', _, rfl, .inr rfl⟩
    | some f => exact ⟨'.', _, rfl, .inl rfl⟩

/-! ## The text of a float -/

theorem Numeral.chars_positional (b : Bool) (ds : Digits) (e : ℤ) :
    (positional b ds e).chars =
      (if b then ['-'] else []) ++ positionalText true ds.chars e := by
  unfold positional positionalText
  split
  · simp [chars, tail, Digits.zero, Digits.pad]
  split
  next h => simp [chars, tail, Digits.zero, Digits.pad, h]
  next h =>
    refine congrArg ((if b then ['-'] else []) ++ ·) ?_
    simp [tail, split, Digits.elim_behind, Digits.upTo, h]

theorem Numeral.chars_scientific (b : Bool) (ds : Digits) (e : ℤ) :
    (scientific b ds (.wide e)).chars =
      (if b then ['-'] else []) ++ scientificText ds.chars e := by
  have hexponent : (Exponent.wide e).chars =
      'e' :: (if e < 0 then '-' else '+') :: padLeft '0' 2 (Nat.toDigits 10 e.natAbs) := by
    unfold Exponent.chars Exponent.wide
    split <;> simp [Mark.chars, Digits.pad, Digits.ofNat, padLeft]
  refine congrArg ((if b then ['-'] else []) ++ ·) ?_
  unfold scientificText
  rw [← hexponent, tail]
  simp only [scientific, split, Digits.elim_behind, Digits.upTo, Option.elim_some]
  obtain ⟨d, rest, hds, -⟩ := ds.exists_cons
  rw [hds]
  cases rest <;> simp

theorem layout_templateStyle (b : Bool) (cs : List Char) (e : ℤ) :
    layout templateStyle b cs e = (if b then ['-'] else []) ++
      if -4 ≤ e ∧ e < 16 then positionalText true cs e else scientificText cs e := by
  simp [layout, templateStyle]

/-- **A float is written as a numeral.** -/
theorem exists_written (b : Bool) (ds : Digits) (e : ℤ) :
    ∃ n : Numeral, n.chars = layout templateStyle b ds.chars e ∧ Written b ds e n := by
  rw [layout_templateStyle]
  by_cases he : -4 ≤ e ∧ e < 16
  · rw [if_pos he]
    refine ⟨.positional b ds e, Numeral.chars_positional b ds e, ?_,
      fun _ => Numeral.positional_spec b ds e, fun h => absurd he h⟩
    unfold Numeral.positional
    split
    · rfl
    split <;> rfl
  · rw [if_neg he]
    exact ⟨.scientific b ds (.wide e), Numeral.chars_scientific b ds e, rfl,
      fun h => absurd h he, fun _ => Numeral.scientific_spec b ds e⟩

end

end Templating.Decimal
