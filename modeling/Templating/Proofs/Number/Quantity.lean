import Templating.Proofs.Number.Quotient

/-!
# The number that a float stands for

* `quantity?`: the number or the infinity that a float stands for.
* `beq_iff_quantity`: floats are equal if they stand for the same.
* `exists_quantity_ofInt`: an integer as a float stands for the nearest number that any float stands
  for.
* `quantity?_ofInt`: **integers up to `2 ^ 53` stand for themselves.**
-/

namespace Templating.Binary64

open Float.Model
open Float.Model.UnpackedFloat

/-- What a float stands for, if it is a number. -/
inductive Quantity where
  | infinite (negative : Bool)
  | finite (q : ℚ)
deriving DecidableEq

/-- A number with a minus in front if asked. -/
def signed (negative : Bool) (q : ℚ) : ℚ := if negative then -q else q

/-- What a float stands for. Both zeros stand for the same number. -/
def quantity? (x : Float) : Option Quantity :=
  match read x with
  | .nan => none
  | .infinite negative => some (.infinite negative)
  | .finite negative m e => some (.finite (signed negative (m * 2 ^ e)))

variable {x y : Float} {s s' : Sign} {m m' n : Nat} {e e' : Int} {q r : ℚ}

theorem abs_signed (negative : Bool) (q : ℚ) : |signed negative q| = |q| := by
  cases negative
  · rfl
  · exact abs_neg q

theorem signed_eq_iff (hq : 0 < q) (hr : 0 < r) :
    signed (isMinus s) q = signed (isMinus s') r ↔ s = s' ∧ q = r := by
  cases s <;> cases s' <;> simp [signed, isMinus] <;> intro h <;> linarith

theorem signed_ne_zero (hq : 0 < q) (negative : Bool) : signed negative q ≠ 0 := by
  rw [← abs_pos, abs_signed]
  exact abs_pos.2 hq.ne'

theorem signed_signed (b b' : Bool) (q : ℚ) :
    signed b (signed b' q) = q ∨ signed b (signed b' q) = -q := by
  cases b <;> cases b' <;> simp [signed]

theorem signed_self (b : Bool) (q : ℚ) : signed b (signed b q) = q := by
  cases b <;> simp [signed]

theorem signed_sub (b : Bool) (q r : ℚ) : signed b (q - r) = signed b q - signed b r := by
  cases b
  · rfl
  · simp only [signed, if_true]
    ring

theorem Canonical.value_pos (hc : Canonical m e) : (0 : ℚ) < m * 2 ^ e := by
  have hm : (0 : ℚ) < m := by exact_mod_cast hc.pos
  positivity

/-! ## Floats are equal if they stand for the same -/

/-- A float is below the floats of a greater exponent by at least its unit. -/
theorem Canonical.add_unit_le (hc : Canonical m e) (hc' : Canonical m' e') (h : e < e') :
    (m * 2 ^ e + 2 ^ e : ℚ) ≤ m' * 2 ^ e' := by
  have hlt : (m : ℚ) + 1 ≤ 2 ^ 53 := by exact_mod_cast hc.lt
  have hfull : (2 : ℚ) ^ 52 ≤ m' := by
    have hleast := hc.least
    exact_mod_cast hc'.full.resolve_right (by omega)
  have hunit : (2 : ℚ) * 2 ^ e ≤ 2 ^ e' := by
    rw [mul_comm, ← zpow_add_one₀ (by norm_num)]
    exact zpow_le_zpow_right₀ (by norm_num) h
  calc (m * 2 ^ e + 2 ^ e : ℚ) = (m + 1) * 2 ^ e := by ring
    _ ≤ 2 ^ 53 * 2 ^ e := by gcongr
    _ = 2 ^ 52 * (2 * 2 ^ e) := by ring
    _ ≤ m' * 2 ^ e' := by gcongr

/-- A number has one mantissa and one exponent. -/
theorem Canonical.eq_of_value_eq (hc : Canonical m e) (hc' : Canonical m' e')
    (h : (m * 2 ^ e : ℚ) = m' * 2 ^ e') : m = m' ∧ e = e' := by
  have hunit (e : ℤ) : (0 : ℚ) < 2 ^ e := by positivity
  rcases lt_trichotomy e e' with hlt | rfl | hlt
  · have hle := hc.add_unit_le hc' hlt
    linarith [hunit e]
  · exact ⟨by exact_mod_cast mul_right_cancel₀ (hunit e).ne' h, rfl⟩
  · have hle := hc'.add_unit_le hc hlt
    linarith [hunit e']

theorem compare_finite_iff {hm : 0 < m} {hm' : 0 < m'} :
    UnpackedFloat.compare (.finite s m e hm) (.finite s' m' e' hm') = some .eq ↔
      s = s' ∧ m = m' ∧ e = e' := by
  cases s <;> cases s' <;>
    simp [UnpackedFloat.compare, Ordering.then_eq_eq, and_comm]

theorem quantity?_of_nan (hx : x.toModel.unpack = .notANumber) : quantity? x = none := by
  rw [quantity?, read, hx]

theorem quantity?_of_infinity (hx : x.toModel.unpack = .infinity s) :
    quantity? x = some (.infinite (isMinus s)) := by
  rw [quantity?, read, hx]

theorem quantity?_of_zero (hx : x.toModel.unpack = .zero s) : quantity? x = some (.finite 0) := by
  rw [quantity?, read, hx]
  cases s <;> simp [signed, isMinus]

theorem quantity?_of_finite {hm : 0 < m} (hx : x.toModel.unpack = .finite s m e hm) :
    quantity? x = some (.finite (signed (isMinus s) (m * 2 ^ e))) := by
  rw [quantity?, read, hx]

theorem compare_infinity_iff :
    UnpackedFloat.compare (.infinity s) (.infinity s') = some .eq ↔ isMinus s = isMinus s' := by
  cases s <;> cases s' <;> decide

/-- **Floats are equal if they stand for the same.** -/
theorem beq_iff_quantity : (x == y) = true ↔ ∃ q, quantity? x = some q ∧ quantity? y = some q := by
  change (UnpackedFloat.compare x.toModel.unpack y.toModel.unpack == some .eq) = true ↔ _
  rw [beq_iff_eq]
  cases hx : x.toModel.unpack with
  | notANumber => simp [quantity?_of_nan hx, UnpackedFloat.compare]
  | infinity s =>
    cases hy : y.toModel.unpack with
    | notANumber => cases s <;> simp [quantity?_of_nan hy, UnpackedFloat.compare]
    | infinity s' =>
      rw [compare_infinity_iff]
      simp [quantity?_of_infinity hx, quantity?_of_infinity hy, eq_comm]
    | zero _ =>
      cases s <;> simp [quantity?_of_infinity hx, quantity?_of_zero hy, UnpackedFloat.compare]
    | finite _ _ _ _ =>
      cases s <;> simp [quantity?_of_infinity hx, quantity?_of_finite hy, UnpackedFloat.compare]
  | zero s =>
    cases hy : y.toModel.unpack with
    | notANumber => cases s <;> simp [quantity?_of_nan hy, UnpackedFloat.compare]
    | infinity s' =>
      cases s' <;> simp [quantity?_of_zero hx, quantity?_of_infinity hy, UnpackedFloat.compare]
    | zero _ => simp [quantity?_of_zero hx, quantity?_of_zero hy, UnpackedFloat.compare]
    | finite s' m' e' _ =>
      -- only the zeros stand for zero
      have hne := signed_ne_zero (canonical_of_unpack hy).value_pos (isMinus s')
      cases s' <;> simp [quantity?_of_zero hx, quantity?_of_finite hy, UnpackedFloat.compare, hne]
  | finite s m e _ =>
    have hc := canonical_of_unpack hx
    cases hy : y.toModel.unpack with
    | notANumber => cases s <;> simp [quantity?_of_nan hy, UnpackedFloat.compare]
    | infinity s' =>
      cases s' <;> simp [quantity?_of_finite hx, quantity?_of_infinity hy, UnpackedFloat.compare]
    | zero _ =>
      have hne := (signed_ne_zero hc.value_pos (isMinus s)).symm
      cases s <;> simp [quantity?_of_finite hx, quantity?_of_zero hy, UnpackedFloat.compare, hne]
    | finite s' m' e' _ =>
      have hc' := canonical_of_unpack hy
      rw [compare_finite_iff, quantity?_of_finite hx, quantity?_of_finite hy]
      simp only [Option.some.injEq, exists_eq_left', Quantity.finite.injEq]
      rw [signed_eq_iff hc'.value_pos hc.value_pos, eq_comm]
      exact and_congr_right fun _ =>
        ⟨fun ⟨hm, he⟩ => by rw [hm, he], fun h => hc.eq_of_value_eq hc' h.symm⟩

/-! ## Integers stand for the nearest numbers -/

/-- Between the float to which a number is rounded and the next ones there is room for the numbers
that are rounded to it. -/
theorem Canonical.gap (hc : Canonical m e) (hc' : Canonical m' e') :
    (m' * 2 ^ e' : ℚ) = m * 2 ^ e ∨ (m' * 2 ^ e' : ℚ) ≤ (m - 2 * below m e) * 2 ^ e ∨
      ((m + 1) * 2 ^ e : ℚ) ≤ m' * 2 ^ e' := by
  have hunit : (0 : ℚ) < 2 ^ e := by positivity
  have hbelow := below_le m e
  rcases Int.lt_or_le e' e with hlt | hle
  · -- a smaller exponent: the float is below all mantissas of 53 bits
    refine .inr (.inl ?_)
    have hfull : 2 ^ 52 ≤ m := hc.full.resolve_right (by have := hc'.least; omega)
    have hcast : (2 : ℚ) ^ 52 ≤ m := by exact_mod_cast hfull
    have hlt' : (m' : ℚ) ≤ 2 ^ 53 - 1 := by
      have h : m' + 1 ≤ 2 ^ 53 := hc'.lt
      have h' : (m' : ℚ) + 1 ≤ 2 ^ 53 := by exact_mod_cast h
      linarith
    have hhalf : (2 : ℚ) ^ e' ≤ 2 ^ e / 2 := by
      rw [le_div_iff₀ (by norm_num), ← zpow_add_one₀ (by norm_num)]
      exact zpow_le_zpow_right₀ (by norm_num) hlt
    have hmantissa : (2 : ℚ) ^ 52 - 1 / 2 ≤ m - 2 * below m e := by
      by_cases hpower : m = 2 ^ 52
      · have hquarter : below m e = 1 / 4 := if_pos ⟨hpower, by have := hc'.least; omega⟩
        rw [hquarter]
        linarith
      · have h : 2 ^ 52 + 1 ≤ m := by omega
        have h' : (2 : ℚ) ^ 52 + 1 ≤ m := by exact_mod_cast h
        linarith
    calc (m' * 2 ^ e' : ℚ) ≤ (2 ^ 53 - 1) * (2 ^ e / 2) := by gcongr
      _ = (2 ^ 52 - 1 / 2) * 2 ^ e := by ring
      _ ≤ (m - 2 * below m e) * 2 ^ e := by gcongr
  · -- no smaller exponent: the float is a multiple of the unit
    obtain ⟨k, rfl⟩ : ∃ k : ℕ, e' = e + k := ⟨(e' - e).toNat, by omega⟩
    have hvalue : (m' * 2 ^ (e + (k : ℤ)) : ℚ) = (m' * 2 ^ k : ℕ) * 2 ^ e := by
      rw [zpow_add₀ (by norm_num), zpow_natCast]
      push_cast
      ring
    rw [hvalue]
    rcases lt_trichotomy (m' * 2 ^ k) m with hlt | heq | hgt
    · refine .inr (.inl ?_)
      have h : ((m' * 2 ^ k : ℕ) : ℚ) + 1 ≤ m := by exact_mod_cast hlt
      gcongr
      linarith
    · exact .inl (by rw [heq])
    · refine .inr (.inr ?_)
      have h : (m : ℚ) + 1 ≤ (m' * 2 ^ k : ℕ) := by exact_mod_cast hgt
      gcongr

/-- No float is nearer to a number than the one to which it is rounded. -/
theorem RoundsTo.le_of_float (hc : Canonical m e) (hm : RoundsTo m e (q / 2 ^ e)) (hq : 0 < q)
    (hr : r ≤ 0 ∨ ∃ m' e', Canonical m' e' ∧ r = m' * 2 ^ e') :
    |m * 2 ^ e - q| ≤ |r - q| := by
  have hunit : (0 : ℚ) < 2 ^ e := by positivity
  have hlow := (le_div_iff₀ hunit).1 hm.low
  have hhigh := (div_le_iff₀ hunit).1 hm.high
  have hpositive := mul_pos (below_pos m e) hunit
  have hbelow := mul_le_mul_of_nonneg_right (below_le m e) hunit.le
  have hpos : (2 : ℚ) ^ e ≤ m * 2 ^ e := by
    have h : (1 : ℚ) ≤ m := by exact_mod_cast hc.pos
    exact le_mul_of_one_le_left hunit.le h
  refine abs_sub_le_iff.2 ?_
  rcases hr with hr | ⟨m', e', hc', rfl⟩
  · rw [abs_of_nonpos (by linarith)]
    constructor <;> linarith
  · rcases hc.gap hc' with heq | hbefore | hbehind
    · rw [heq]
      exact ⟨le_abs_self _, by linarith [neg_le_abs (m * 2 ^ e - q : ℚ)]⟩
    · rw [abs_of_nonpos (by linarith)]
      constructor <;> linarith
    · rw [abs_of_nonneg (by linarith)]
      constructor <;> linarith

/-- A float is not positive, or has a mantissa and an exponent. With a minus in front, too. -/
theorem value_cases (hx : quantity? x = some (.finite q)) (negative : Bool) :
    signed negative q ≤ 0 ∨ ∃ m e, Canonical m e ∧ signed negative q = m * 2 ^ e := by
  cases hunpack : x.toModel.unpack with
  | notANumber => simp [quantity?_of_nan hunpack] at hx
  | infinity s => simp [quantity?_of_infinity hunpack] at hx
  | zero s =>
    rw [quantity?_of_zero hunpack] at hx
    cases hx
    cases negative <;> exact .inl (by simp [signed])
  | finite s m e _ =>
    have hc := canonical_of_unpack hunpack
    have hpos := hc.value_pos
    rw [quantity?_of_finite hunpack] at hx
    cases hx
    rcases signed_signed negative (isMinus s) (m * 2 ^ e) with h | h
    · exact .inr ⟨m, e, hc, h⟩
    · exact .inl (by linarith)

theorem quantity?_ofInt_of_roundsTo {a : Int} (ha : a ≠ 0) (hc : Canonical m e)
    (hm : RoundsTo m e (a.natAbs / 2 ^ e)) :
    quantity? (Float.ofInt a) = some (.finite (signed (a < 0) (m * 2 ^ e))) := by
  have hsign (negative : Bool) : isMinus (signOf negative) = negative := by cases negative <;> rfl
  have hencodes := encodes_ofInt ha hc hm
  rw [quantity?_of_finite hencodes.unpack, hsign]

theorem signed_natAbs (a : Int) : signed (a < 0) a.natAbs = (a : ℚ) := by
  rcases Int.lt_or_le a 0 with h | h
  · rw [signed, if_pos (by simpa using h), Nat.cast_natAbs, abs_of_neg h]
    push_cast
    ring
  · rw [signed, if_neg (by simpa using h), Nat.cast_natAbs, abs_of_nonneg h]

/-- **An integer stands for the nearest number that a float stands for.** -/
theorem exists_quantity_ofInt {a : Int} (ha : a.natAbs ≤ 2 ^ 63) :
    ∃ q, quantity? (Float.ofInt a) = some (.finite q) ∧
      ∀ x r, quantity? x = some (.finite r) → |q - a| ≤ |r - a| := by
  by_cases hzero : a = 0
  · subst hzero
    refine ⟨0, quantity?_of_zero (s := .positive) (by rfl), fun x r _ => ?_⟩
    rw [Int.cast_zero, sub_zero, abs_zero]
    exact abs_nonneg _
  · have hpos : 0 < a.natAbs := Int.natAbs_pos.2 hzero
    have hlow : (1 : ℚ) ≤ a.natAbs := by exact_mod_cast hpos
    have hhigh : (a.natAbs : ℚ) ≤ 2 ^ 63 := by exact_mod_cast ha
    obtain ⟨m, e, hc, hm, -⟩ := exists_roundsTo (q := a.natAbs)
      (le_trans (by norm_num) hlow) (lt_of_le_of_lt hhigh (by norm_num))
    refine ⟨_, quantity?_ofInt_of_roundsTo hzero hc hm, fun x r hx => ?_⟩
    have hnearest := hm.le_of_float hc (by linarith) (value_cases hx (a < 0))
    -- the distances are the same without the sign
    rw [← abs_signed (a < 0) (_ - _), ← abs_signed (a < 0) (_ - _)] at hnearest
    rwa [signed_sub, signed_sub, signed_natAbs, signed_self] at hnearest

/-- An integer that a float stands for is converted to that float. -/
theorem quantity?_ofInt_of_exact {a : Int} (ha : a.natAbs ≤ 2 ^ 63)
    (hx : quantity? x = some (.finite a)) : quantity? (Float.ofInt a) = some (.finite a) := by
  obtain ⟨q, hq, hnearest⟩ := exists_quantity_ofInt ha
  have hle := hnearest x a hx
  rw [sub_self, abs_zero, abs_nonpos_iff, sub_eq_zero] at hle
  rw [hq, hle]

/-- **Integers up to `2 ^ 53` stand for themselves.** -/
theorem quantity?_ofInt {a : Int} (ha : a.natAbs ≤ 2 ^ 53) :
    quantity? (Float.ofInt a) = some (.finite a) := by
  by_cases hzero : a = 0
  · subst hzero
    exact quantity?_of_zero (s := .positive) (by rfl)
  · obtain ⟨m, e, hc, hvalue⟩ : ∃ m e, Canonical m e ∧ (m * 2 ^ e : ℚ) = a.natAbs := by
      rcases ha.lt_or_eq with hlt | heq
      · exact exists_exact (Int.natAbs_pos.2 hzero) hlt
      · exact ⟨2 ^ 52, 1, ⟨by decide, by decide, by decide, by decide, .inl le_rfl⟩, by
          rw [heq]; norm_num⟩
    rw [quantity?_ofInt_of_roundsTo hzero hc (roundsTo_of_eq hvalue), hvalue, signed_natAbs]

end Templating.Binary64
