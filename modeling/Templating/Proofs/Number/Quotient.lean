import Templating.Proofs.Number.Rounding

/-!
# Integers and their quotients as floats

* `Encodes`: the sign, the mantissa and the exponent of a finite float.
* `exists_roundsTo`: every number of a moderate size is rounded to a float, which differs from it by
  at most one part in `2 ^ 53`.
* `encodes_ofInt`, `Encodes.div`, `Encodes.floor?_eq`: integers as floats, quotients, and the
  integers below them.
* `floor?_ofInt_div`: **rounding a quotient does not change the integer below it**, if the dividend
  has at most 53 bits.
-/

namespace Templating.Binary64

open Float.Model
open Float.Model.UnpackedFloat

variable {x y : Float} {s s₁ s₂ : Sign} {m n : Nat} {e e₀ : Int} {q : ℚ}

/-- The sign, the mantissa and the exponent of a finite float other than zero. -/
structure Encodes (x : Float) (s : Sign) (m : Nat) (e : Int) : Prop where
  canonical : Canonical m e
  unpack : x.toModel.unpack = .finite s m e canonical.pos

/-! ## Numbers that are rounded -/

theorem below_pos (m : Nat) (e : Int) : 0 < below m e := by
  rw [below]
  split <;> norm_num

/-- A float is rounded to itself. -/
theorem roundsTo_self (m : Nat) (e : Int) : RoundsTo m e m := by
  have hbelow := below_pos m e
  refine ⟨by linarith, by linarith, ?_⟩
  rintro (h | h)
  · linarith
  · linarith

theorem exists_nearest (hq : 0 ≤ q) : ∃ n, Nearest n q := by
  have hlow := Nat.floor_le hq
  have hhigh := Nat.lt_floor_add_one q
  generalize ⌊q⌋₊ = k at hlow hhigh
  rcases lt_trichotomy q (k + 1 / 2) with h | h | h
  · exact ⟨k, by linarith, by linarith, fun heq => by rcases heq with heq | heq <;> linarith⟩
  · -- halfway the even one is taken
    rcases Nat.mod_two_eq_zero_or_one k with hk | hk
    · exact ⟨k, by linarith, by linarith, fun _ => hk⟩
    · exact ⟨k + 1, by push_cast; linarith, by push_cast; linarith, fun _ => by omega⟩
  · refine ⟨k + 1, by push_cast; linarith, by push_cast; linarith, fun heq => ?_⟩
    push_cast at heq
    rcases heq with heq | heq <;> linarith

/-- A number between two powers of two, the lower one with 52 places before the point. -/
theorem exists_exponent (hq : 0 < q) : ∃ e : ℤ, 2 ^ (52 + e) ≤ q ∧ q < 2 ^ (53 + e) := by
  have hlow : (2 : ℚ) ^ Int.log 2 q ≤ q := by
    exact_mod_cast Int.zpow_log_le_self (b := 2) (by norm_num) hq
  have hhigh : q < (2 : ℚ) ^ (Int.log 2 q + 1) := by
    exact_mod_cast Int.lt_zpow_succ_log_self (b := 2) (by norm_num) q
  refine ⟨Int.log 2 q - 52, ?_, ?_⟩
  · rwa [show 52 + (Int.log 2 q - 52) = Int.log 2 q by omega]
  · rwa [show 53 + (Int.log 2 q - 52) = Int.log 2 q + 1 by omega]

/-- To the mantissa nearest to a number of 53 bits the number is rounded. -/
theorem roundsTo_of_nearest (hm : Nearest m q) (hlow : 2 ^ 52 ≤ q) : RoundsTo m e q := by
  have hbelow := below_pos m e
  by_cases hpower : m = 2 ^ 52
  · have hcast : (m : ℚ) = 2 ^ 52 := by exact_mod_cast hpower
    exact ⟨by linarith, hm.high, fun _ => by omega⟩
  · have hhalf : below m e = 1 / 2 := if_neg fun h => hpower h.1
    refine ⟨by linarith [hm.low], hm.high, fun heq => hm.even ?_⟩
    rwa [hhalf] at heq

/-- A number that is nearest to the next power of two is rounded up to it. -/
theorem roundsTo_of_carry (hm : Nearest (2 ^ 53) q) (hhigh : q < 2 ^ 53) (he : -1074 ≤ e) :
    RoundsTo (2 ^ 52) (e + 1) (q / 2) := by
  have hquarter : below (2 ^ 52) (e + 1) = 1 / 4 := if_pos ⟨rfl, by omega⟩
  have hlow := hm.low
  push_cast at hlow
  refine ⟨?_, ?_, fun _ => by decide⟩
  · rw [hquarter]
    push_cast
    linarith
  · push_cast
    linarith

/-- The mantissa nearest to a number of 53 bits, or one bit more, makes a float. -/
theorem exists_canonical (hm : Nearest m q) (hlow : 2 ^ 52 ≤ q) (hhigh : q < 2 ^ 53)
    (he : -1074 ≤ e) (he' : e ≤ 970) :
    ∃ m' e', Canonical m' e' ∧ RoundsTo m' e' (q * 2 ^ e / 2 ^ e') ∧
      (m' : ℚ) * 2 ^ e' = m * 2 ^ e := by
  have hmlow : 2 ^ 52 ≤ m := by
    have h : (2 : ℚ) ^ 52 < m + 1 := by linarith [hm.high]
    have h' : 2 ^ 52 < m + 1 := by exact_mod_cast h
    omega
  have hmhigh : m ≤ 2 ^ 53 := by
    have h : (m : ℚ) < 2 ^ 53 + 1 := by linarith [hm.low]
    have h' : m < 2 ^ 53 + 1 := by exact_mod_cast h
    omega
  have hunit : (2 : ℚ) ^ e ≠ 0 := by positivity
  -- rounding up may carry into one bit more
  rcases Nat.lt_or_ge m (2 ^ 53) with h | h
  · refine ⟨m, e, ⟨by omega, h, he, by omega, .inl hmlow⟩, ?_, rfl⟩
    rw [mul_div_assoc, div_self hunit, mul_one]
    exact roundsTo_of_nearest hm hlow
  · obtain rfl : m = 2 ^ 53 := le_antisymm hmhigh h
    have hdouble : q * 2 ^ e / 2 ^ (e + 1) = q / 2 := by
      rw [zpow_add_one₀ (by norm_num)]
      field_simp
    refine ⟨2 ^ 52, e + 1, ⟨by decide, by decide, by omega, by omega, .inl le_rfl⟩, ?_, ?_⟩
    · rw [hdouble]
      exact roundsTo_of_carry hm hhigh he
    · rw [zpow_add_one₀ (by norm_num)]
      push_cast
      ring

/-- **A number of a moderate size is rounded to a float**, which is as near as 53 bits allow. -/
theorem exists_roundsTo (hlow : 2 ^ (-100 : ℤ) ≤ q) (hhigh : q < 2 ^ (100 : ℤ)) :
    ∃ m e, Canonical m e ∧ RoundsTo m e (q / 2 ^ e) ∧ |m * 2 ^ e - q| ≤ q / 2 ^ 53 := by
  have hpos : 0 < q := lt_of_lt_of_le (by positivity) hlow
  obtain ⟨e, hge, hlt⟩ := exists_exponent hpos
  have hunit : (0 : ℚ) < 2 ^ e := by positivity
  have hsplit (k : ℕ) : (2 : ℚ) ^ ((k : ℤ) + e) = 2 ^ k * 2 ^ e := by
    rw [zpow_add₀ (by norm_num), zpow_natCast]
  have hleast := two_zpow_lt (hlow.trans_lt hlt)
  have hgreatest := two_zpow_lt (hge.trans_lt hhigh)
  have hge' : (2 : ℚ) ^ 52 ≤ q / 2 ^ e := by
    rw [le_div_iff₀ hunit, ← hsplit 52]
    exact hge
  have hlt' : q / 2 ^ e < 2 ^ 53 := by
    rw [div_lt_iff₀ hunit, ← hsplit 53]
    exact hlt
  obtain ⟨k, hk⟩ := exists_nearest (q := q / 2 ^ e) (by linarith)
  obtain ⟨m, e', hc, hm, hvalue⟩ :=
    exists_canonical (e := e) hk hge' hlt' (by omega) (by omega)
  rw [div_mul_cancel₀ q hunit.ne'] at hm
  refine ⟨m, e', hc, hm, ?_⟩
  -- half a unit of the last place is at most one part in `2 ^ 53`
  have hhalf : |(k : ℚ) - q / 2 ^ e| ≤ 1 / 2 :=
    abs_sub_le_iff.2 ⟨by linarith [hk.low], by linarith [hk.high]⟩
  have herror : (k : ℚ) * 2 ^ e - q = (k - q / 2 ^ e) * 2 ^ e := by
    rw [sub_mul, div_mul_cancel₀ q hunit.ne']
  rw [hvalue, herror, abs_mul, abs_of_pos hunit]
  calc |(k : ℚ) - q / 2 ^ e| * 2 ^ e ≤ 1 / 2 * 2 ^ e := mul_le_mul_of_nonneg_right hhalf hunit.le
    _ = 2 ^ 52 * 2 ^ e / 2 ^ 53 := by ring
    _ ≤ q / 2 ^ 53 := by
        rw [← hsplit 52]
        exact div_le_div_of_nonneg_right hge (by positivity)

/-! ## Integers as floats -/

/-- **An integer is rounded to the float that it is around.** -/
theorem round_eq (hn : 0 < n) (hc : Canonical m e) (hm : RoundsTo m e (n / 2 ^ e)) :
    UnpackedFloat.round .binary64 s n 0 = .finite s m e hc.pos := by
  have hlog : (2 : ℚ) ^ (n.log2 : ℤ) ≤ n := by
    rw [zpow_natCast]
    exact_mod_cast Nat.log2_self_le hn.ne'
  have hlength := two_zpow_lt (hlog.trans_lt (hm.lt hc))
  have hleast := hc.least
  -- a short integer gets zeros behind it, so that it has 53 bits
  obtain ⟨k, hk⟩ : ∃ k : ℕ, k = 52 - n.log2 := ⟨_, rfl⟩
  have hdecrease : decreaseExponent n 0 (Format.binary64.targetExponent (totalExponent n 0)) =
      (n <<< k, -(k : ℤ)) := by
    rw [targetExponent_eq, decreaseExponent,
      show (0 - max ((n.log2 : ℤ) + 0 - 52) (-1074)).toNat = k by omega]
    simp
  obtain ⟨j, rfl⟩ : ∃ j : ℕ, e = -(k : ℤ) + j := ⟨(e + k).toNat, by omega⟩
  have hvalue : (n / 2 ^ (-(k : ℤ) + j) : ℚ) = ((n <<< k : ℕ) : ℚ) / 2 ^ j := by
    rw [zpow_add₀ (by norm_num), zpow_neg, zpow_natCast, zpow_natCast, Nat.shiftLeft_eq]
    push_cast
    field_simp
  have hexact : Describes (ExtendedMantissa.ofMantissaAndAccuracy (n <<< k) .exact)
      ((n <<< k : ℕ) : ℚ) := rfl
  rw [UnpackedFloat.round, hdecrease]
  rw [hvalue] at hm
  refine roundWithAccuracy_eq hc hexact hm fun h hnormal => ?_
  rw [← hvalue, div_lt_iff₀ (by positivity)] at h
  have h' : (n : ℚ) < 2 ^ (52 + (-(k : ℤ) + j)) := by rwa [zpow_add₀ (by norm_num)]
  have hshort := two_zpow_lt (hlog.trans_lt h')
  omega

theorem unpack_one : (Float.ofBits 0x3FF0000000000000).toModel.unpack =
    .finite .positive (2 ^ 52) (-52) (by decide) := by
  rfl

/-- A product with one is rounded to the float itself. -/
theorem mul_one_eq (hc : Canonical m e) :
    UnpackedFloat.mul .binary64 (.finite .positive m e hc.pos)
      (.finite .positive (2 ^ 52) (-52) (by decide)) = .finite .positive m e hc.pos := by
  obtain ⟨f, rfl⟩ : ∃ f : ℤ, e = f + (52 : ℕ) := ⟨e - 52, by omega⟩
  have hexact : Describes (ExtendedMantissa.ofMantissaAndAccuracy (m * 2 ^ 52) .exact)
      ((m * 2 ^ 52 : ℕ) : ℚ) := rfl
  have hvalue : ((m * 2 ^ 52 : ℕ) : ℚ) / 2 ^ 52 = m := by
    rw [Nat.cast_mul, Nat.cast_pow, Nat.cast_ofNat, mul_div_assoc, div_self (by positivity),
      mul_one]
  have hround := roundWithAccuracy_eq (s := .positive) hc hexact
    (by rw [hvalue]; exact roundsTo_self m _) fun _ _ => by decide
  rw [UnpackedFloat.mul, show f + (52 : ℕ) + -52 = f by omega]
  exact hround

theorem encodes_ofNat (hn : 0 < n) (hc : Canonical m e) (hm : RoundsTo m e (n / 2 ^ e)) :
    Encodes (Float.ofNat n) .positive m e := by
  refine ⟨hc, ?_⟩
  change (Float.ofScientific n false 0).toModel.unpack = _
  unfold Float.ofScientific
  -- an integer that fits a word is converted and multiplied by one, a longer one is a decimal
  split
  next h =>
    have hword : n.toUInt64.toNat = n := Nat.mod_eq_of_lt (by omega)
    have hround : (n.toUInt64.toFloat).toModel.unpack = .finite .positive m e hc.pos := by
      change (Float.Model.pack (UnpackedFloat.ofInt .binary64 (n.toUInt64.toNat : ℤ))).unpack = _
      rw [hword, UnpackedFloat.ofInt, UnpackedFloat.normalize, Int.compare_eq_gt.2 (by omega)]
      simp only [Int.toNat_natCast, round_eq hn hc hm]
      exact unpack_pack .positive hc
    change (Float.Model.pack (UnpackedFloat.mul .binary64 (n.toUInt64.toFloat).toModel.unpack
      (Float.ofBits 0x3FF0000000000000).toModel.unpack)).unpack = _
    rw [hround, unpack_one, mul_one_eq hc]
    exact unpack_pack .positive hc
  next h =>
    have hmul : UnpackedFloat.ofScientific .binary64 n 0 = .finite .positive m e hc.pos := by
      rw [UnpackedFloat.ofScientific, dif_neg hn.ne', if_neg (by norm_num),
        if_neg (by norm_num), if_pos le_rfl]
      exact ofScientific_mul hn hc 0 (by simpa using hm)
    change (Float.Model.pack (UnpackedFloat.ofScientific .binary64 n 0)).unpack = _
    rw [hmul]
    exact unpack_pack .positive hc

theorem Encodes.neg (hx : Encodes x s m e) : Encodes (-x) (-s) m e := by
  refine ⟨hx.canonical, ?_⟩
  change (Float.Model.pack x.toModel.unpack.neg).unpack = _
  rw [hx.unpack]
  exact unpack_pack _ hx.canonical

/-- The float of an integer has its sign, and its absolute value is rounded. -/
theorem encodes_ofInt {a : Int} (ha : a ≠ 0) (hc : Canonical m e)
    (hm : RoundsTo m e (a.natAbs / 2 ^ e)) : Encodes (Float.ofInt a) (signOf (a < 0)) m e := by
  have hpos : 0 < a.natAbs := Int.natAbs_pos.2 ha
  have hnat := encodes_ofNat hpos hc hm
  cases a with
  | ofNat n =>
    have hsign : decide (Int.ofNat n < 0) = false := by simp
    rw [hsign]
    exact hnat
  | negSucc n =>
    have hsign : decide (Int.negSucc n < 0) = true := by simp [Int.negSucc_lt_zero]
    rw [hsign]
    exact hnat.neg

theorem natAbs_toInt_le (n : Int64) : n.toInt.natAbs ≤ 2 ^ 63 := by
  have hlow := n.le_toInt
  have hhigh := n.toInt_lt
  omega

/-! ## Quotients -/

theorem Encodes.div {d c : Nat} {e₁ e₂ : Int} (hx : Encodes x s₁ d e₁) (hy : Encodes y s₂ c e₂)
    (hc : Canonical m e) (hm : RoundsTo m e (d * 2 ^ e₁ / (c * 2 ^ e₂) / 2 ^ e)) :
    Encodes (x / y) (s₁ / s₂) m e := by
  refine ⟨hc, ?_⟩
  change (Float.Model.pack (UnpackedFloat.div .binary64 x.toModel.unpack y.toModel.unpack)).unpack =
    _
  rw [hx.unpack, hy.unpack, div_eq hx.canonical.pos hy.canonical.pos hc hm]
  exact unpack_pack _ hc

/-- The integer below a finite float, with its sign. -/
theorem floorScaled_eq (negative : Bool) (m : Nat) (e : Int) :
    floorScaled negative m e = ⌊(if negative then -(m * 2 ^ e) else m * 2 ^ e : ℚ)⌋ := by
  obtain ⟨a, ha⟩ : ∃ a : Int, a = if negative then -(m : Int) else m := ⟨_, rfl⟩
  have hsigned : (if negative then -(m * 2 ^ e) else m * 2 ^ e : ℚ) = a * 2 ^ e := by
    rw [ha]
    split
    · push_cast
      ring
    · push_cast
      rfl
  rw [hsigned, floorScaled, ← ha]
  by_cases he : 0 ≤ e
  · obtain ⟨k, rfl⟩ := Int.eq_ofNat_of_zero_le he
    rw [if_pos he, Int.toNat_natCast, zpow_natCast]
    have hcast : (a * 2 ^ k : ℚ) = ((a * (2 ^ k : ℕ) : ℤ) : ℚ) := by push_cast; rfl
    rw [hcast, Int.floor_intCast]
    rfl
  · obtain ⟨k, rfl⟩ : ∃ k : ℕ, e = -(k : ℤ) := ⟨(-e).toNat, by omega⟩
    have hcast : (a * 2 ^ (-(k : ℤ)) : ℚ) = (a : ℚ) / ((2 ^ k : ℕ) : ℚ) := by
      rw [zpow_neg, zpow_natCast, div_eq_mul_inv]
      push_cast
      rfl
    rw [if_neg he, neg_neg, Int.toNat_natCast, hcast, Rat.floor_intCast_div_natCast]
    exact Int.fdiv_eq_ediv_of_nonneg a (by positivity)

theorem Encodes.floor?_eq (hx : Encodes x s m e) :
    floor? x = some ⌊(if isMinus s then -(m * 2 ^ e) else m * 2 ^ e : ℚ)⌋ := by
  rw [floor?, read, hx.unpack, ← floorScaled_eq]

/-! ## The integer below a quotient -/

variable {b c d : Nat}

/-- Integers of 53 bits are floats. -/
theorem exists_exact (hn : 0 < n) (h : n < 2 ^ 53) :
    ∃ m e, Canonical m e ∧ (m * 2 ^ e : ℚ) = n := by
  have hlog : n.log2 < 53 := (Nat.log2_lt hn.ne').2 h
  obtain ⟨k, hk⟩ : ∃ k, n.log2 + k = 52 := ⟨52 - n.log2, by omega⟩
  have hlow : 2 ^ 52 ≤ n * 2 ^ k := by
    rw [← hk, pow_add]
    exact Nat.mul_le_mul_right _ (Nat.log2_self_le hn.ne')
  have hhigh : n * 2 ^ k < 2 ^ 53 := by
    have hlt : n * 2 ^ k < 2 ^ (n.log2 + 1) * 2 ^ k :=
      Nat.mul_lt_mul_of_pos_right Nat.lt_log2_self (Nat.two_pow_pos k)
    rwa [← pow_add, show n.log2 + 1 + k = 53 by omega] at hlt
  refine ⟨n * 2 ^ k, -(k : ℤ), ⟨by omega, hhigh, by omega, by omega, .inl hlow⟩, ?_⟩
  rw [zpow_neg, zpow_natCast]
  push_cast
  field_simp

theorem roundsTo_of_eq (h : (m * 2 ^ e : ℚ) = q) : RoundsTo m e (q / 2 ^ e) := by
  have hself : q / 2 ^ e = m := by
    rw [← h]
    field_simp
  rw [hself]
  exact roundsTo_self m e

theorem floor_ceil_of_between {k : Nat} (hlow : k < q) (hhigh : q < k + 1) :
    ⌊q⌋ = k ∧ ⌈q⌉ = k + 1 := by
  refine ⟨Int.floor_eq_iff.2 ⟨?_, ?_⟩, Int.ceil_eq_iff.2 ⟨?_, ?_⟩⟩
  · exact_mod_cast hlow.le
  · exact_mod_cast hhigh
  · push_cast
    linarith
  · push_cast
    exact hhigh.le

/-- A quotient that is no integer keeps away from the integers around it. -/
theorem exists_between (hc : 0 < c) (h : ¬ c ∣ d) :
    ∃ k : ℕ, (k : ℚ) + 1 / c ≤ d / c ∧ (d / c : ℚ) + 1 / c ≤ k + 1 := by
  have hpos : (0 : ℚ) < c := by exact_mod_cast hc
  have hrest : d % c ≠ 0 := fun hzero => h (Nat.dvd_of_mod_eq_zero hzero)
  have hlt : d % c < c := Nat.mod_lt d hc
  have hdivision := Nat.div_add_mod d c
  refine ⟨d / c, ?_, ?_⟩
  · rw [← le_sub_iff_add_le, ← sub_div, le_div_iff₀ hpos]
    have hle : d / c * c + 1 ≤ d := by
      rw [Nat.mul_comm]
      omega
    have hcast : ((d / c : ℕ) : ℚ) * c + 1 ≤ d := by exact_mod_cast hle
    linarith
  · rw [← add_div, div_le_iff₀ hpos]
    have hle : d + 1 ≤ (d / c + 1) * c := by
      rw [Nat.add_mul, Nat.mul_comm (d / c)]
      omega
    exact_mod_cast hle

/-- A quotient of words is neither tiny nor huge. -/
theorem quotient_bounds (hd : 0 < d) (hd' : d < 2 ^ 53) (hc : 0 < c) (hc' : c ≤ 2 ^ 64) :
    (2 : ℚ) ^ (-100 : ℤ) ≤ d / c ∧ (d / c : ℚ) < 2 ^ (100 : ℤ) := by
  have hpos : (0 : ℚ) < c := by exact_mod_cast hc
  have hone : (1 : ℚ) ≤ d := by exact_mod_cast hd
  have hdlt : (d : ℚ) < 2 ^ 53 := by exact_mod_cast hd'
  have hcle : (c : ℚ) ≤ 2 ^ 64 := by exact_mod_cast hc'
  constructor
  · rw [le_div_iff₀ hpos]
    calc (2 : ℚ) ^ (-100 : ℤ) * c ≤ 2 ^ (-100 : ℤ) * 2 ^ 64 :=
          mul_le_mul_of_nonneg_left hcle (by positivity)
      _ ≤ 1 := by norm_num
      _ ≤ d := hone
  · calc (d / c : ℚ) ≤ d := div_le_self (by linarith) (by exact_mod_cast hc)
      _ < 2 ^ 53 := hdlt
      _ ≤ 2 ^ (100 : ℤ) := by norm_num

/-- **Rounding a quotient moves it over no integer** and onto none, if the dividend has at most 53
bits: the distance to the next integer is at least one part of the divisor. -/
theorem exists_quotient (hd : 0 < d) (hd' : d < 2 ^ 53) (hc : 0 < c) (hc' : c ≤ 2 ^ 64) :
    ∃ m e, Canonical m e ∧ RoundsTo m e (d / c / 2 ^ e) ∧
      ⌊(m * 2 ^ e : ℚ)⌋ = ⌊(d / c : ℚ)⌋ ∧ ⌈(m * 2 ^ e : ℚ)⌉ = ⌈(d / c : ℚ)⌉ := by
  have hpos : (0 : ℚ) < c := by exact_mod_cast hc
  by_cases hdvd : c ∣ d
  · obtain ⟨k, rfl⟩ := hdvd
    have hk : 0 < k := Nat.pos_of_mul_pos_left hd
    have hle : k ≤ c * k := Nat.le_mul_of_pos_left k hc
    obtain ⟨m, e, hcanonical, hvalue⟩ := exists_exact hk (by omega)
    have hquotient : ((c * k : ℕ) / c : ℚ) = k := by
      push_cast
      field_simp
    rw [hquotient]
    exact ⟨m, e, hcanonical, roundsTo_of_eq hvalue, by rw [hvalue], by rw [hvalue]⟩
  · obtain ⟨k, hlow, hhigh⟩ := exists_between hc hdvd
    obtain ⟨hleast, hgreatest⟩ := quotient_bounds hd hd' hc hc'
    obtain ⟨m, e, hcanonical, hm, herror⟩ := exists_roundsTo hleast hgreatest
    -- the error is less than the distance to the integers around the quotient
    have hunit : (0 : ℚ) < 1 / c := by positivity
    have hdlt : (d : ℚ) < 2 ^ 53 := by exact_mod_cast hd'
    have hsmall : (d / c : ℚ) / 2 ^ 53 < 1 / c := by
      rw [div_right_comm]
      exact div_lt_div_of_pos_right ((div_lt_one (by positivity)).2 hdlt) hpos
    obtain ⟨hleft, hright⟩ := abs_sub_le_iff.1 herror
    have hexact := floor_ceil_of_between (k := k) (q := d / c) (by linarith) (by linarith)
    have hrounded := floor_ceil_of_between (k := k) (q := m * 2 ^ e) (by linarith) (by linarith)
    exact ⟨m, e, hcanonical, hm, hrounded.1.trans hexact.1.symm, hrounded.2.trans hexact.2.symm⟩

/-- The float of an integer with more than 53 bits is an integer of that size, too. -/
theorem exists_large (h : 2 ^ 53 ≤ b) (hb' : b ≤ 2 ^ 63) :
    ∃ m e c, Canonical m e ∧ RoundsTo m e (b / 2 ^ e) ∧ (m * 2 ^ e : ℚ) = (c : ℕ) ∧
      2 ^ 53 ≤ c ∧ c ≤ 2 ^ 64 := by
  have hge : (2 : ℚ) ^ (53 : ℤ) ≤ b := by exact_mod_cast h
  have hle : (b : ℚ) ≤ 2 ^ 63 := by exact_mod_cast hb'
  obtain ⟨m, e, hc, hm, herror⟩ := exists_roundsTo (q := b)
    (le_trans (by norm_num) hge) (lt_of_le_of_lt hle (by norm_num))
  -- the exponent is positive, so there are no places behind the point
  have he : 0 < e := by
    have hlt := two_zpow_lt (hge.trans_lt (hm.lt hc))
    omega
  obtain ⟨k, rfl⟩ := Int.eq_ofNat_of_zero_le he.le
  have hfull : 2 ^ 52 ≤ m := hc.full.resolve_right (by omega)
  have hlarge : 2 ^ 53 ≤ m * 2 ^ k := by
    calc 2 ^ 53 = 2 ^ 52 * 2 ^ 1 := by norm_num
      _ ≤ m * 2 ^ k := Nat.mul_le_mul hfull (Nat.pow_le_pow_right (by decide) (by omega))
  have hvalue : (m * 2 ^ (k : ℤ) : ℚ) = ((m * 2 ^ k : ℕ) : ℚ) := by
    rw [zpow_natCast]
    push_cast
    rfl
  have hbound : m * 2 ^ k ≤ 2 ^ 64 := by
    obtain ⟨hleft, -⟩ := abs_sub_le_iff.1 herror
    rw [hvalue] at hleft
    have hcast : ((m * 2 ^ k : ℕ) : ℚ) ≤ ((2 ^ 64 : ℕ) : ℚ) := by
      rw [Nat.cast_pow, Nat.cast_ofNat]
      linarith
    exact_mod_cast hcast
  exact ⟨m, k, m * 2 ^ k, hc, hm, hvalue, hlarge, hbound⟩

/-- The float of a divisor is a divisor again. It is the same one or, like it, larger than any
number of 53 bits. -/
theorem exists_divisor (hb : 0 < b) (hb' : b ≤ 2 ^ 63) :
    ∃ m e c, Canonical m e ∧ RoundsTo m e (b / 2 ^ e) ∧ (m * 2 ^ e : ℚ) = (c : ℕ) ∧ 0 < c ∧
      c ≤ 2 ^ 64 ∧ (c = b ∨ 2 ^ 53 ≤ b ∧ 2 ^ 53 ≤ c) := by
  rcases Nat.lt_or_ge b (2 ^ 53) with h | h
  · obtain ⟨m, e, hc, hvalue⟩ := exists_exact hb h
    exact ⟨m, e, b, hc, roundsTo_of_eq hvalue, hvalue, hb, by omega, .inl rfl⟩
  · obtain ⟨m, e, c, hc, hm, hvalue, hlarge, hbound⟩ := exists_large h hb'
    exact ⟨m, e, c, hc, hm, hvalue, by omega, hbound, .inr ⟨h, hlarge⟩⟩

/-- A large divisor of whatever size leaves nothing but a fraction. -/
theorem floor_ceil_of_lt (hd : 0 < d) (h : d < c) : ⌊(d / c : ℚ)⌋ = 0 ∧ ⌈(d / c : ℚ)⌉ = 1 := by
  have hpos : (0 : ℚ) < c := by exact_mod_cast hd.trans h
  have hd' : (0 : ℚ) < d := by exact_mod_cast hd
  have hlt : (d / c : ℚ) < 1 := (div_lt_one hpos).2 (by exact_mod_cast h)
  have hlow : ((0 : ℕ) : ℚ) < d / c := by
    rw [Nat.cast_zero]
    positivity
  have hhigh : (d / c : ℚ) < (0 : ℕ) + 1 := by simpa using hlt
  simpa using floor_ceil_of_between hlow hhigh

/-- The float nearest to an integer divides as the integer does, as far as integers are
concerned. -/
theorem exists_rounded_quotient (hd : 0 < d) (hd' : d < 2 ^ 53) (hb : 0 < b) (hb' : b ≤ 2 ^ 63) :
    ∃ m₁ e₁ m₂ e₂ m e, (Canonical m₁ e₁ ∧ RoundsTo m₁ e₁ (d / 2 ^ e₁)) ∧
      (Canonical m₂ e₂ ∧ RoundsTo m₂ e₂ (b / 2 ^ e₂)) ∧
      (Canonical m e ∧ RoundsTo m e (m₁ * 2 ^ e₁ / (m₂ * 2 ^ e₂) / 2 ^ e)) ∧
      ⌊(m * 2 ^ e : ℚ)⌋ = ⌊(d / b : ℚ)⌋ ∧ ⌈(m * 2 ^ e : ℚ)⌉ = ⌈(d / b : ℚ)⌉ := by
  obtain ⟨m₁, e₁, hc₁, hvalue₁⟩ := exists_exact hd hd'
  obtain ⟨m₂, e₂, c, hc₂, hm₂, hvalue₂, hc, hc', hsame⟩ := exists_divisor hb hb'
  obtain ⟨m, e, hcanonical, hm, hfloor, hceil⟩ := exists_quotient hd hd' hc hc'
  have hinteger : ⌊(d / c : ℚ)⌋ = ⌊(d / b : ℚ)⌋ ∧ ⌈(d / c : ℚ)⌉ = ⌈(d / b : ℚ)⌉ := by
    rcases hsame with rfl | ⟨hblarge, hclarge⟩
    · exact ⟨rfl, rfl⟩
    · have hwithb := floor_ceil_of_lt hd (hd'.trans_le hblarge)
      have hwithc := floor_ceil_of_lt hd (hd'.trans_le hclarge)
      exact ⟨hwithc.1.trans hwithb.1.symm, hwithc.2.trans hwithb.2.symm⟩
  refine ⟨m₁, e₁, m₂, e₂, m, e, ⟨hc₁, roundsTo_of_eq hvalue₁⟩, ⟨hc₂, hm₂⟩, ⟨hcanonical, ?_⟩,
    hfloor.trans hinteger.1, hceil.trans hinteger.2⟩
  rw [hvalue₁, hvalue₂]
  exact hm

theorem unpack_pack_zero (s : Sign) : (Float.Model.pack (.zero s)).unpack = .zero s := by
  cases s <;> rfl

theorem floor?_zero_div (hy : Encodes y s m e) : floor? (Float.ofInt 0 / y) = some 0 := by
  have hzero : (Float.ofInt 0).toModel.unpack = .zero .positive := by rfl
  have hquotient : (Float.ofInt 0 / y).toModel.unpack = .zero (.positive / s) := by
    change (Float.Model.pack (UnpackedFloat.div .binary64 (Float.ofInt 0).toModel.unpack
      y.toModel.unpack)).unpack = _
    rw [hzero, hy.unpack]
    exact unpack_pack_zero _
  rw [floor?, read, hquotient]
  cases s <;> rfl

/-- The sign of a quotient. -/
theorem isMinus_div (p q : Bool) : isMinus (signOf p / signOf q) = (p != q) := by
  cases p <;> cases q <;> rfl

/-- A quotient of integers from that of their absolute values. -/
theorem div_eq_of_signs (a b : Int) : (a / b : ℚ) =
    if decide (a < 0) != decide (b < 0) then -((a.natAbs : ℚ) / b.natAbs)
    else (a.natAbs : ℚ) / b.natAbs := by
  have habs (a : Int) : (a : ℚ) = if a < 0 then -(a.natAbs : ℚ) else a.natAbs := by
    rw [Nat.cast_natAbs]
    split
    next h => rw [abs_of_neg h, Int.cast_neg, neg_neg]
    next h => rw [abs_of_nonneg (not_lt.1 h)]
  rw [habs a, habs b]
  by_cases ha : a < 0
  · by_cases hb : b < 0
    · simp [ha, hb, neg_div_neg_eq]
    · simp [ha, hb, neg_div]
  · by_cases hb : b < 0
    · simp [ha, hb, div_neg]
    · simp [ha, hb]

/-- **The integer below a quotient in floating point is the one below the exact quotient**, if the
dividend has at most 53 bits. -/
theorem floor?_ofInt_div {a b : Int} (ha : a.natAbs < 2 ^ 53) (hb : b ≠ 0)
    (hb' : b.natAbs ≤ 2 ^ 63) :
    floor? (Float.ofInt a / Float.ofInt b) = some ⌊(a / b : ℚ)⌋ := by
  have hbpos : 0 < b.natAbs := Int.natAbs_pos.2 hb
  by_cases hzero : a = 0
  · subst hzero
    obtain ⟨m, e, -, hc, hm, -⟩ := exists_divisor hbpos hb'
    rw [floor?_zero_div (encodes_ofInt hb hc hm)]
    simp
  · obtain ⟨m₁, e₁, m₂, e₂, m, e, ⟨hc₁, hm₁⟩, ⟨hc₂, hm₂⟩, ⟨hc, hm⟩, hfloor, hceil⟩ :=
      exists_rounded_quotient (Int.natAbs_pos.2 hzero) ha hbpos hb'
    have hencodes := (encodes_ofInt hzero hc₁ hm₁).div (encodes_ofInt hb hc₂ hm₂) hc hm
    rw [hencodes.floor?_eq, isMinus_div, div_eq_of_signs]
    split
    · rw [Int.floor_neg, Int.floor_neg, hceil]
    · rw [hfloor]

end Templating.Binary64
