import Templating.Proofs.Number.Digits
import Templating.Proofs.Number.Packing

/-!
# Rounding to 53 bits

* `Describes`: what a mantissa with its two residual bits says about a number.
* `Nearest`, `roundedMantissa_eq`: such a mantissa is rounded to the nearest one.
* `RoundsTo`: the numbers that a finite float stands for after rounding.
* `roundWithAccuracy_eq`: **they are rounded to that float.**
-/

namespace Templating.Binary64

open Float.Model
open Float.Model.UnpackedFloat

/-- What a mantissa with its two residual bits says about a number. -/
def Describes : ExtendedMantissa → ℚ → Prop
  | ⟨m, false, false⟩, x => x = m
  | ⟨m, false, true⟩, x => m < x ∧ x < m + 1 / 2
  | ⟨m, true, false⟩, x => x = m + 1 / 2
  | ⟨m, true, true⟩, x => m + 1 / 2 < x ∧ x < m + 1

variable {em : ExtendedMantissa} {x : ℚ}

theorem Describes.floor (h : Describes em x) : em.mantissa ≤ x ∧ x < em.mantissa + 1 := by
  obtain ⟨m, r, s⟩ := em
  cases r <;> cases s <;> simp only [Describes] at h ⊢ <;> constructor <;> linarith

theorem Describes.shiftRightOne (h : Describes em x) : Describes em.shiftRightOne (x / 2) := by
  obtain ⟨m, r, s⟩ := em
  rw [ExtendedMantissa.shiftRightOne]
  obtain ⟨k, hk | hk⟩ := Nat.even_or_odd' m
  · have hm : (m : ℚ) = 2 * k := by exact_mod_cast hk
    have hbit : (m % 2 != 0) = false := by simp [hk]
    have hhalf : m / 2 = k := by omega
    simp only [hbit, hhalf]
    cases r <;> cases s <;> simp only [Describes, Bool.or_false, Bool.or_true] at h ⊢ <;>
      first | linarith | constructor <;> linarith
  · have hm : (m : ℚ) = 2 * k + 1 := by exact_mod_cast hk
    have hbit : (m % 2 != 0) = true := by simp [hk]
    have hhalf : m / 2 = k := by omega
    simp only [hbit, hhalf]
    cases r <;> cases s <;> simp only [Describes, Bool.or_false, Bool.or_true] at h ⊢ <;>
      first | linarith | constructor <;> linarith

theorem Describes.shiftRight (h : Describes em x) (n : Nat) : Describes (em >>> n) (x / 2 ^ n) := by
  induction n with
  | zero =>
    rw [pow_zero, div_one]
    exact h
  | succ n ih =>
    rw [pow_succ, ← div_div]
    exact ih.shiftRightOne

/-- The natural number nearest to a number; of two, the even one. -/
structure Nearest (n : Nat) (x : ℚ) : Prop where
  low : n - 1 / 2 ≤ x
  high : x ≤ n + 1 / 2
  even : x = n - 1 / 2 ∨ x = n + 1 / 2 → n % 2 = 0

theorem eq_of_close {m n : Nat} (h : (m : ℚ) < n + 1) (h' : (n : ℚ) < m + 1) : m = n := by
  have h₁ : m < n + 1 := by exact_mod_cast h
  have h₂ : n < m + 1 := by exact_mod_cast h'
  omega

/-- A mantissa with residual bits is rounded to the nearest one. -/
theorem roundedMantissa_eq {n : Nat} (h : Describes em x) (hn : Nearest n x) :
    em.roundedMantissa = n := by
  obtain ⟨hlow, hhigh, heven⟩ := hn
  obtain ⟨m, r, s⟩ := em
  cases r <;> cases s <;> simp only [Describes] at h
  · change m = n
    exact eq_of_close (by linarith) (by linarith)
  · change m = n
    exact eq_of_close (by linarith) (by linarith)
  · change m + m % 2 = n
    have hle : m < n + 1 := by
      have : (m : ℚ) < n + 1 := by linarith
      exact_mod_cast this
    have hle' : n < m + 1 + 1 := by
      have : (n : ℚ) < m + 1 + 1 := by linarith
      exact_mod_cast this
    obtain rfl | rfl : n = m ∨ n = m + 1 := by omega
    · have := heven (.inr h)
      omega
    · have := heven (.inl (by push_cast; linarith))
      omega
  · change m + 1 = n
    exact eq_of_close (by push_cast; linarith) (by push_cast; linarith)

/-! ## The two shifts -/

theorem targetExponent_eq (m : Nat) (e : Int) :
    Format.binary64.targetExponent (totalExponent m e) = max ((m.log2 : Int) + e - 52) (-1074) := by
  simp only [Format.targetExponent, totalExponent, Format.mantissaBits, Format.minExponent]
  norm_num
  omega

/-- What rounding ends with: the mantissa may have got one bit too many. -/
def finish (s : Sign) (m : Nat) (e : Int) : UnpackedFloat :=
  let (em, e) := shiftToTargetExponent .binary64 m e .exact
  if h : em.mantissa = 0 then .zero s else .finite s em.mantissa e (Nat.pos_of_ne_zero h)

theorem finish_eq {s : Sign} {m : Nat} {e : Int} (hpos : 0 < m) (hlt : m < 2 ^ 53)
    (he : -1074 ≤ e) : finish s m e = .finite s m e hpos := by
  have hlog : m.log2 < 53 := (Nat.log2_lt hpos.ne').2 hlt
  have hshift : (Format.binary64.targetExponent (totalExponent m e) - e).toNat = 0 := by
    rw [targetExponent_eq]
    omega
  have hresult : shiftToTargetExponent .binary64 m e .exact = (⟨m, false, false⟩, e) := by
    simp only [shiftToTargetExponent, shiftToExponent, hshift, Int.natCast_zero, Int.add_zero]
    rfl
  simp [finish, hresult, hpos.ne']

theorem finish_carry {s : Sign} {e : Int} (he : -1074 ≤ e) :
    finish s (2 ^ 53) e = .finite s (2 ^ 52) (e + 1) (by decide) := by
  have hshift : (Format.binary64.targetExponent (totalExponent (2 ^ 53) e) - e).toNat = 1 := by
    rw [targetExponent_eq, Nat.log2_two_pow]
    omega
  have hresult : shiftToTargetExponent .binary64 (2 ^ 53) e .exact =
      (⟨2 ^ 52, false, false⟩, e + 1) := by
    simp only [shiftToTargetExponent, shiftToExponent, hshift]
    rfl
  rw [finish, hresult]
  rfl

variable {s : Sign} {m k n : Nat} {e t : Int} {a : Accuracy}

/-- The first shift makes the number nearest to a mantissa, and the second one takes that. -/
theorem roundWithAccuracy_finish
    (hx : Describes (ExtendedMantissa.ofMantissaAndAccuracy k a) x)
    (ht : Format.binary64.targetExponent (totalExponent k e) = e + n)
    (hm : Nearest m (x / 2 ^ n)) :
    roundWithAccuracy .binary64 s k e a = finish s m (e + n) := by
  have hshift : shiftToTargetExponent .binary64 k e a =
      (ExtendedMantissa.ofMantissaAndAccuracy k a >>> n, e + n) := by
    simp only [shiftToTargetExponent, shiftToExponent, ht]
    rw [show (e + n - e).toNat = n by omega]
  rw [roundWithAccuracy, hshift]
  simp only [roundedMantissa_eq (hx.shiftRight n) hm]
  rfl

/-- The length of a mantissa from the number that it is part of. -/
theorem log2_of_describes (hx : Describes (ExtendedMantissa.ofMantissaAndAccuracy k a) x) {b : Nat}
    (hlow : 2 ^ b ≤ x) (hhigh : x < 2 ^ (b + 1)) : k.log2 = b := by
  have hmantissa : (ExtendedMantissa.ofMantissaAndAccuracy k a).mantissa = k := by
    cases a with
    | exact => rfl
    | inexact o => cases o <;> rfl
  obtain ⟨hle, hlt⟩ := hx.floor
  rw [hmantissa] at hle hlt
  have h₁ : 2 ^ b < k + 1 := by
    have : (2 ^ b : ℚ) < k + 1 := by linarith
    exact_mod_cast this
  have h₂ : k < 2 ^ (b + 1) := by
    have : (k : ℚ) < 2 ^ (b + 1) := by linarith
    exact_mod_cast this
  have hpos : 0 < 2 ^ b := Nat.two_pow_pos b
  rw [Nat.log2_eq_iff (by omega)]
  exact ⟨by omega, h₂⟩

theorem log2_le_of_describes (hx : Describes (ExtendedMantissa.ofMantissaAndAccuracy k a) x)
    {b : Nat} (hhigh : x < 2 ^ (b + 1)) : k.log2 ≤ b := by
  have hmantissa : (ExtendedMantissa.ofMantissaAndAccuracy k a).mantissa = k := by
    cases a with
    | exact => rfl
    | inexact o => cases o <;> rfl
  obtain ⟨hle, -⟩ := hx.floor
  rw [hmantissa] at hle
  have h₂ : k < 2 ^ (b + 1) := by
    have : (k : ℚ) < 2 ^ (b + 1) := by linarith
    exact_mod_cast this
  by_cases hk : k = 0
  · simp [hk]
  · have := (Nat.log2_lt hk).2 h₂
    omega

/-! ## The numbers around a float -/

/-- How far below a float the numbers begin that are rounded to it, in units of its last place.
Below a power of two floats are half as far apart. -/
def below (m : Nat) (e : Int) : ℚ := if m = 2 ^ 52 ∧ -1074 < e then 1 / 4 else 1 / 2

/-- A number is rounded to the float `m · 2 ^ e`. It is given in units of the last place. -/
structure RoundsTo (m : Nat) (e : Int) (x : ℚ) : Prop where
  low : m - below m e ≤ x
  high : x ≤ m + 1 / 2
  even : x = m - below m e ∨ x = m + 1 / 2 → m % 2 = 0

theorem below_le (m : Nat) (e : Int) : below m e ≤ 1 / 2 := by
  rw [below]
  split <;> norm_num

theorem RoundsTo.nearest (h : RoundsTo m e x) : Nearest m x := by
  have hbelow := below_le m e
  refine ⟨by linarith [h.low], h.high, fun hx => ?_⟩
  rcases hx with hx | hx
  · exact h.even (.inl (by linarith [h.low]))
  · exact h.even (.inr hx)

/-- **A number around a float is rounded to it**, if its mantissa is given to enough bits. -/
theorem roundWithAccuracy_eq (hc : Canonical m (e + n))
    (hx : Describes (ExtendedMantissa.ofMantissaAndAccuracy k a) x)
    (hm : RoundsTo m (e + n) (x / 2 ^ n)) (hn : x / 2 ^ n < 2 ^ 52 → -1074 < e + n → 0 < n) :
    roundWithAccuracy .binary64 s k e a = .finite s m (e + n) hc.pos := by
  have hunit : (0 : ℚ) < 2 ^ n := by positivity
  have hlt : (m : ℚ) + 1 ≤ 2 ^ 53 := by exact_mod_cast hc.lt
  have hupper : x < 2 ^ (52 + n + 1) := by
    have h : x / 2 ^ n < 2 ^ 53 := by linarith [hm.high]
    rw [div_lt_iff₀ hunit] at h
    calc x < 2 ^ 53 * 2 ^ n := h
      _ = 2 ^ (52 + n + 1) := by ring
  by_cases hfull : 2 ^ 52 ≤ x / 2 ^ n
  · have hlower : 2 ^ (52 + n) ≤ x := by
      rw [le_div_iff₀ hunit] at hfull
      calc (2 : ℚ) ^ (52 + n) = 2 ^ 52 * 2 ^ n := by ring
        _ ≤ x := hfull
    have ht : Format.binary64.targetExponent (totalExponent k e) = e + n := by
      rw [targetExponent_eq, log2_of_describes hx hlower hupper]
      have := hc.least
      push_cast
      omega
    rw [roundWithAccuracy_finish hx ht hm.nearest, finish_eq hc.pos hc.lt hc.least]
  rw [not_le] at hfull
  have hupper' : x < 2 ^ (52 + n) := by
    rw [div_lt_iff₀ hunit] at hfull
    calc x < 2 ^ 52 * 2 ^ n := hfull
      _ = 2 ^ (52 + n) := by ring
  by_cases hleast : e + n = -1074
  · have hlog : k.log2 ≤ 51 + n := log2_le_of_describes hx (by
      rwa [show 51 + n + 1 = 52 + n by omega])
    have ht : Format.binary64.targetExponent (totalExponent k e) = e + n := by
      rw [targetExponent_eq]
      omega
    rw [roundWithAccuracy_finish hx ht hm.nearest, finish_eq hc.pos hc.lt hc.least]
  -- below a power of two the mantissa has one bit more than the float, and gets another one
  · have hnormal : -1074 < e + n := lt_of_le_of_ne hc.least (Ne.symm hleast)
    obtain ⟨j, rfl⟩ : ∃ j, n = j + 1 := ⟨n - 1, by have := hn hfull hnormal; omega⟩
    have hge : 2 ^ 52 ≤ m := hc.full.resolve_right hleast
    have hle : m ≤ 2 ^ 52 := by
      have h : (m : ℚ) < 2 ^ 52 + 1 := by linarith [hm.low, below_le m (e + ↑(j + 1))]
      have h' : m < 2 ^ 52 + 1 := by exact_mod_cast h
      omega
    obtain rfl : m = 2 ^ 52 := le_antisymm hle hge
    have hlow := hm.low
    have hhalf : x / 2 ^ (j + 1) = x / 2 ^ j / 2 := by rw [pow_succ, div_div]
    rw [below, if_pos ⟨rfl, hnormal⟩, hhalf] at hlow
    rw [hhalf] at hfull
    push_cast at hlow
    have hnearest : Nearest (2 ^ 53) (x / 2 ^ j) := by
      refine ⟨?_, ?_, fun _ => by norm_num⟩
      · push_cast
        linarith
      · push_cast
        linarith
    have hlower : 2 ^ (52 + j) ≤ x := by
      have h : 2 ^ 52 ≤ x / 2 ^ j := by linarith
      rw [le_div_iff₀ (by positivity)] at h
      calc (2 : ℚ) ^ (52 + j) = 2 ^ 52 * 2 ^ j := by ring
        _ ≤ x := h
    have ht : Format.binary64.targetExponent (totalExponent k e) = e + j := by
      rw [targetExponent_eq, log2_of_describes hx hlower (by convert hupper' using 2; omega)]
      push_cast at hnormal ⊢
      omega
    rw [roundWithAccuracy_finish hx ht hnearest, finish_carry (by push_cast at hnormal; omega)]
    congr 1
    push_cast
    omega

/-! ## Decimal numbers -/

/-- A quotient and the position of the rest. -/
theorem describes_div {b c : Nat} (hc : 0 < c) :
    Describes (ExtendedMantissa.ofMantissaAndAccuracy (b / c) (accuracyOfFraction (b % c) c))
      (b / c) := by
  have hc' : (0 : ℚ) < c := by exact_mod_cast hc
  have hlt : ((b % c : ℕ) : ℚ) < c := by exact_mod_cast Nat.mod_lt b hc
  have hsum : (b : ℚ) = c * (b / c : ℕ) + (b % c : ℕ) := by
    exact_mod_cast (Nat.div_add_mod b c).symm
  have hquotient : (b : ℚ) / c = (b / c : ℕ) + (b % c : ℕ) / c := by
    rw [div_eq_iff hc'.ne', hsum]
    field_simp
  rw [accuracyOfFraction, hquotient]
  split
  · rename_i hzero
    simp [Describes, ExtendedMantissa.ofMantissaAndAccuracy, hzero]
  · rename_i hzero
    have hpos : (0 : ℚ) < (b % c : ℕ) := by exact_mod_cast Nat.pos_of_ne_zero hzero
    -- twice the rest tells on which side of the half the quotient is
    cases hcmp : compare (2 * (b % c)) c with
    | lt =>
      have h : 2 * ((b % c : ℕ) : ℚ) < c := by exact_mod_cast Nat.compare_eq_lt.1 hcmp
      refine ⟨by simpa using div_pos hpos hc', ?_⟩
      have : ((b % c : ℕ) : ℚ) / c < 1 / 2 := by
        rw [div_lt_div_iff₀ hc' (by norm_num)]
        linarith
      linarith
    | eq =>
      have h : 2 * ((b % c : ℕ) : ℚ) = c := by exact_mod_cast Nat.compare_eq_eq.1 hcmp
      have : ((b % c : ℕ) : ℚ) / c = 1 / 2 := by
        rw [div_eq_div_iff hc'.ne' (by norm_num)]
        linarith
      rw [this]
      rfl
    | gt =>
      have h : (c : ℚ) < 2 * ((b % c : ℕ) : ℚ) := by exact_mod_cast Nat.compare_eq_gt.1 hcmp
      have h₁ : 1 / 2 < ((b % c : ℕ) : ℚ) / c := by
        rw [div_lt_div_iff₀ (by norm_num) hc']
        linarith
      have h₂ : ((b % c : ℕ) : ℚ) / c < 1 := (div_lt_one hc').2 hlt
      exact ⟨by linarith, by linarith⟩

variable {d : Nat} {g : Int}

theorem two_zpow_lt {i j : Int} (h : (2 : ℚ) ^ i < 2 ^ j) : i < j :=
  (zpow_lt_zpow_iff_right₀ (by norm_num)).1 h

theorem RoundsTo.lt (hc : Canonical m e) (hm : RoundsTo m e (x / 2 ^ e)) : x < 2 ^ (53 + e) := by
  have hlt : (m : ℚ) + 1 ≤ 2 ^ 53 := by exact_mod_cast hc.lt
  have h : x / 2 ^ e < 2 ^ 53 := by linarith [hm.high]
  rw [div_lt_iff₀ (by positivity)] at h
  rwa [zpow_add₀ (by norm_num)]

/-- A number with a power of ten as a factor. -/
theorem ofScientific_mul (hd : 0 < d) (hc : Canonical m e) (p : Nat)
    (hm : RoundsTo m e (d * 10 ^ p / 2 ^ e)) :
    UnpackedFloat.mul .binary64 (.finite .positive (d <<< 53) (-53) (by simpa))
      (.finite .positive (10 ^ p) 0 (Nat.pow_pos (by decide))) =
        .finite .positive m e hc.pos := by
  have hge : (1 : ℚ) ≤ d * 10 ^ p := by
    have : 1 ≤ d * 10 ^ p := Nat.mul_pos hd (Nat.pow_pos (by decide))
    exact_mod_cast this
  have hexponent : 0 < 53 + e := two_zpow_lt (by simpa using lt_of_le_of_lt hge (hm.lt hc))
  obtain ⟨n, rfl⟩ : ∃ n : Nat, e = -53 + n := ⟨(e + 53).toNat, by omega⟩
  have hvalue : (d * 10 ^ p / 2 ^ (-53 + (n : ℤ)) : ℚ) = ((d <<< 53 * 10 ^ p : ℕ) : ℚ) / 2 ^ n := by
    rw [zpow_add₀ (by norm_num), Nat.shiftLeft_eq]
    push_cast
    field_simp
    rw [zpow_natCast]
    ring
  rw [hvalue] at hm
  have hexact : Describes (ExtendedMantissa.ofMantissaAndAccuracy (d <<< 53 * 10 ^ p) .exact)
      ((d <<< 53 * 10 ^ p : ℕ) : ℚ) := rfl
  exact roundWithAccuracy_eq hc hexact hm fun _ _ => by omega

/-- **A quotient is rounded to the float that it is around.** -/
theorem div_eq {s₁ s₂ : Sign} {e₁ e₂ : Int} (hd : 0 < d) {c : Nat} (hpos : 0 < c)
    (hc : Canonical m e) (hm : RoundsTo m e (d * 2 ^ e₁ / (c * 2 ^ e₂) / 2 ^ e)) :
    UnpackedFloat.div .binary64 (.finite s₁ d e₁ hd) (.finite s₂ c e₂ hpos) =
      .finite (s₁ / s₂) m e hc.pos := by
  have hc' : (0 : ℚ) < c := by exact_mod_cast hpos
  have hquotient : (d * 2 ^ e₁ / (c * 2 ^ e₂) : ℚ) = d / c * 2 ^ (e₁ - e₂) := by
    rw [zpow_sub₀ (by norm_num)]
    field_simp
  rw [hquotient] at hm
  -- the quotient gets enough bits because the lengths of its parts bound its own length
  have hlow : (2 : ℚ) ^ ((d.log2 : ℤ) - c.log2 - 1 + (e₁ - e₂)) < d / c * 2 ^ (e₁ - e₂) := by
    have h₁ : ((2 ^ d.log2 : ℕ) : ℚ) ≤ d := by exact_mod_cast Nat.log2_self_le hd.ne'
    have h₂ : (c : ℚ) < ((2 ^ (c.log2 + 1) : ℕ) : ℚ) := by exact_mod_cast Nat.lt_log2_self
    rw [zpow_add₀ (by norm_num)]
    refine mul_lt_mul_of_pos_right ?_ (by positivity)
    rw [lt_div_iff₀ hc']
    calc (2 : ℚ) ^ ((d.log2 : ℤ) - c.log2 - 1) * c
        < 2 ^ ((d.log2 : ℤ) - c.log2 - 1) * ((2 ^ (c.log2 + 1) : ℕ) : ℚ) :=
          mul_lt_mul_of_pos_left h₂ (by positivity)
      _ = ((2 ^ d.log2 : ℕ) : ℚ) := by
          push_cast
          rw [← zpow_natCast, ← zpow_natCast, ← zpow_add₀ (by norm_num)]
          congr 1
          push_cast
          omega
      _ ≤ d := h₁
  obtain ⟨t, ht⟩ : ∃ t : Int, t = min (e₁ - e₂)
      (max ((d.log2 : ℤ) - c.log2 - 53 + (e₁ - e₂)) (-1074)) := ⟨_, rfl⟩
  have htarget : min (e₁ - e₂) (Format.binary64.targetExponent
      (totalExponent d e₁ - totalExponent c e₂)) = t := by
    rw [ht]
    simp only [Format.targetExponent, totalExponent, Format.mantissaBits, Format.minExponent]
    norm_num
    omega
  have hle : t ≤ e := by
    have := two_zpow_lt (hlow.trans (hm.lt hc))
    have := hc.least
    omega
  have hlt : (d / c * 2 ^ (e₁ - e₂) / 2 ^ e : ℚ) < 2 ^ 52 → -1074 < e → t < e := by
    intro h hnormal
    rw [div_lt_iff₀ (by positivity)] at h
    have h' : (d / c * 2 ^ (e₁ - e₂) : ℚ) < 2 ^ (52 + e) := by rwa [zpow_add₀ (by norm_num)]
    have := two_zpow_lt (hlow.trans h')
    omega
  obtain ⟨n, rfl⟩ : ∃ n : Nat, e = t + n := ⟨(e - t).toNat, by omega⟩
  obtain ⟨j, hj⟩ : ∃ j : Nat, e₁ - e₂ = t + j := ⟨(e₁ - e₂ - t).toNat, by omega⟩
  have hvalue : (d / c * 2 ^ (e₁ - e₂) / 2 ^ (t + n) : ℚ) = ((d <<< j : ℕ) : ℚ) / c / 2 ^ n := by
    rw [hj, zpow_add₀ (by norm_num), zpow_add₀ (by norm_num), Nat.shiftLeft_eq, zpow_natCast,
      zpow_natCast]
    push_cast
    field_simp
  rw [hvalue] at hm hlt
  have hround := roundWithAccuracy_eq (s := s₁ / s₂) hc (describes_div hpos) hm
    fun h h' => by have := hlt h h'; omega
  rw [UnpackedFloat.div, divCore]
  simp only [htarget]
  rw [show (e₁ - e₂ - t).toNat = j by omega]
  exact hround

/-- A number divided by a power of ten. -/
theorem ofScientific_div (hd : 0 < d) (hc : Canonical m e) {c : Nat} (hpos : 0 < c)
    (hm : RoundsTo m e (d / c / 2 ^ e)) :
    UnpackedFloat.div .binary64 (.finite .positive d 0 hd) (.finite .positive c 0 hpos) =
      .finite .positive m e hc.pos :=
  div_eq hd hpos hc (by simpa using hm)

theorem RoundsTo.gt (hc : Canonical m e) (hm : RoundsTo m e (x / 2 ^ e)) : 2 ^ (e - 1) ≤ x := by
  have hpos : (1 : ℚ) ≤ m := by exact_mod_cast hc.pos
  have h : 1 / 2 ≤ x / 2 ^ e := by linarith [hm.low, below_le m e]
  rw [le_div_iff₀ (by positivity)] at h
  rw [zpow_sub_one₀ (by norm_num)]
  linarith

theorem RoundsTo.pos (hc : Canonical m e) (hm : RoundsTo m e (x / 2 ^ e)) : 0 < x :=
  lt_of_lt_of_le (by positivity) (hm.gt hc)

/-- What the length of a number in digits says about the number. -/
theorem zpow_digits_bounds (hd : 0 < d) :
    (10 : ℚ) ^ (g + (Nat.toDigits 10 d).length - 1) ≤ d * 10 ^ g ∧
      (d * 10 ^ g : ℚ) < 10 ^ (g + (Nat.toDigits 10 d).length) := by
  have hlength : 0 < (Nat.toDigits 10 d).length := Nat.length_toDigits_pos
  have hlow : ((10 ^ ((Nat.toDigits 10 d).length - 1) : ℕ) : ℚ) ≤ d := by
    exact_mod_cast Decimal.pow_length_toDigits_le hd
  have hhigh : (d : ℚ) < ((10 ^ (Nat.toDigits 10 d).length : ℕ) : ℚ) := by
    exact_mod_cast Decimal.lt_pow_length_toDigits d
  push_cast at hlow hhigh
  rw [← zpow_natCast] at hlow hhigh
  constructor
  · calc (10 : ℚ) ^ (g + (Nat.toDigits 10 d).length - 1)
        = 10 ^ (((Nat.toDigits 10 d).length - 1 : ℕ) : ℤ) * 10 ^ g := by
          rw [← zpow_add₀ (by norm_num)]
          congr 1
          omega
      _ ≤ d * 10 ^ g := mul_le_mul_of_nonneg_right hlow (by positivity)
  · rw [add_comm, zpow_add₀ (by norm_num)]
    exact mul_lt_mul_of_pos_right hhigh (by positivity)

theorem digits_le_log2 (d : Nat) : (Nat.toDigits 10 d).length ≤ d.log2 + 1 := by
  rw [Nat.length_toDigits_le_iff (by decide) (by omega)]
  calc d < 2 ^ (d.log2 + 1) := Nat.lt_log2_self
    _ ≤ 10 ^ (d.log2 + 1) := Nat.pow_le_pow_left (by decide) _

theorem two_zpow_lt_ten_zpow : (2 : ℚ) ^ (1024 : ℤ) < 10 ^ (320 : ℤ) := by
  calc (2 : ℚ) ^ (1024 : ℤ) = ((2 : ℚ) ^ 16) ^ 64 := by rw [zpow_ofNat, ← pow_mul]
    _ < ((10 : ℚ) ^ 5) ^ 64 := pow_lt_pow_left₀ (by norm_num) (by positivity) (by decide)
    _ = 10 ^ (320 : ℤ) := by rw [zpow_ofNat, ← pow_mul]

theorem ten_zpow_lt_two_zpow : (10 : ℚ) ^ (-331 : ℤ) < 2 ^ (-1075 : ℤ) := by
  have h : (2 : ℚ) ^ (1075 : ℤ) < 10 ^ (331 : ℤ) :=
    calc (2 : ℚ) ^ (1075 : ℤ) ≤ 2 ^ (1089 : ℤ) := zpow_le_zpow_right₀ (by norm_num) (by decide)
      _ = ((2 : ℚ) ^ 33) ^ 33 := by rw [zpow_ofNat, ← pow_mul]
      _ < ((10 : ℚ) ^ 10) ^ 33 := pow_lt_pow_left₀ (by norm_num) (by positivity) (by decide)
      _ = 10 ^ (330 : ℤ) := by rw [zpow_ofNat, ← pow_mul]
      _ ≤ 10 ^ (331 : ℤ) := zpow_le_zpow_right₀ (by norm_num) (by decide)
  rw [zpow_neg, zpow_neg]
  exact inv_strictAnti₀ (by positivity) h

/-- The first digit of a number around a float is neither too small nor too large. -/
theorem RoundsTo.digits_range (hd : 0 < d) (hc : Canonical m e)
    (hm : RoundsTo m e (d * 10 ^ g / 2 ^ e)) :
    -330 ≤ g + (Nat.toDigits 10 d).length ∧ g + (Nat.toDigits 10 d).length ≤ 320 := by
  obtain ⟨hlow, hhigh⟩ := zpow_digits_bounds (g := g) hd
  constructor
  · by_contra! h
    have h₁ : (10 : ℚ) ^ (g + (Nat.toDigits 10 d).length) ≤ 10 ^ (-331 : ℤ) :=
      zpow_le_zpow_right₀ (by norm_num) (by omega)
    have h₂ : (2 : ℚ) ^ (-1075 : ℤ) ≤ 2 ^ (e - 1) :=
      zpow_le_zpow_right₀ (by norm_num) (by have := hc.least; omega)
    exact ((hm.gt hc).trans_lt hhigh).not_ge (h₁.trans (ten_zpow_lt_two_zpow.le.trans h₂))
  · by_contra! h
    have h₁ : (10 : ℚ) ^ (320 : ℤ) ≤ 10 ^ (g + (Nat.toDigits 10 d).length - 1) :=
      zpow_le_zpow_right₀ (by norm_num) (by omega)
    have h₂ : (2 : ℚ) ^ (53 + e) ≤ 2 ^ (1024 : ℤ) :=
      zpow_le_zpow_right₀ (by norm_num) (by have := hc.greatest; omega)
    exact (hlow.trans_lt (hm.lt hc)).not_ge (h₂.trans (two_zpow_lt_ten_zpow.le.trans h₁))

/-- **Decimal digits around a float stand for it.** -/
theorem decimal_eq (hd : 0 < d) (hc : Canonical m e) (hm : RoundsTo m e (d * 10 ^ g / 2 ^ e)) :
    decimal d g = .finite .positive m e hc.pos := by
  have hlength : 0 < (Nat.toDigits 10 d).length := Nat.length_toDigits_pos
  have hlog := digits_le_log2 d
  obtain ⟨hsmall, hlarge⟩ := hm.digits_range hd hc
  rw [decimal]
  rw [if_neg (by omega), if_neg (by omega), UnpackedFloat.ofScientific, dif_neg hd.ne',
    if_neg (by norm_num [Format.exponentBits]; omega),
    if_neg (by norm_num [Format.exponentBits]; omega)]
  split
  · rename_i hg
    obtain ⟨p, rfl⟩ := Int.eq_ofNat_of_zero_le hg
    rw [zpow_natCast] at hm
    exact ofScientific_mul hd hc p hm
  · rename_i hg
    obtain ⟨p, rfl⟩ : ∃ p : Nat, g = -(p : ℤ) := ⟨(-g).toNat, by omega⟩
    have hvalue : (d * 10 ^ (-(p : ℤ)) : ℚ) = d / (10 ^ p : ℕ) := by
      rw [zpow_neg, zpow_natCast]
      push_cast
      rfl
    rw [hvalue] at hm
    simp only [neg_neg, Int.toNat_natCast]
    exact ofScientific_div hd hc (Nat.pow_pos (by decide)) hm

end Templating.Binary64
