import Mathlib.Algebra.Order.Field.Basic
import Mathlib.Data.Rat.Floor
import Templating.Builtin.FunctionCall
import Templating.Value.Operators

/-!
# Integers are exact or fail

Integers are words, and `True` and `False` count as 1 and 0. Division is made from the quotient that
is cut toward zero, which a correction rounds down.

* `floorQuotient`, `floorRemainder`: the same correction on integers without bounds.
* `toInt_floorDivInt`, `toInt_floorModInt`: on words it gives the same numbers.
* `trappingFloorDiv`, `trappingFloorMod`: the division step by step, where a step that wraps traps.
* `integers_exact_or_fail`: **the operators give the exact integer or fail**, and no step of a
  division traps.
-/

namespace Templating

open Number

/-! ## Steps on words -/

namespace Number

variable {m n w : Int64} {t : Int}

/-- A sum that fits does not wrap. -/
theorem toInt_add_of_fits (h : Fits (m.toInt + n.toInt)) :
    (m + n).toInt = m.toInt + n.toInt := by
  rw [Int64.toInt_add]
  obtain ⟨hlow, hhigh⟩ := h
  exact Int.bmod_eq_of_le (by omega) (by omega)

/-- A difference that fits does not wrap. -/
theorem toInt_sub_of_fits (h : Fits (m.toInt - n.toInt)) :
    (m - n).toInt = m.toInt - n.toInt := by
  rw [Int64.toInt_sub]
  obtain ⟨hlow, hhigh⟩ := h
  exact Int.bmod_eq_of_le (by omega) (by omega)

theorem toInt_eq_zero_iff : n.toInt = 0 ↔ n = 0 := by
  rw [← Int64.toInt_inj, Int64.toInt_zero]

theorem toInt_neg_iff : n.toInt < 0 ↔ n < 0 := by
  rw [Int64.lt_iff_toInt_lt, Int64.toInt_zero]

end Number

namespace Value

/-! ## Rounding down on integers without bounds -/

section Unbounded

variable {a b q r : Int}

/-- Whether the quotient that is cut toward zero is too large by one. -/
def IsCutUp (a b : Int) : Prop := a.tmod b ≠ 0 ∧ ¬ (a < 0 ↔ b < 0)

instance (a b : Int) : Decidable (IsCutUp a b) := inferInstanceAs (Decidable (_ ∧ _))

/-- The quotient that is cut toward zero, and one less if it is too large. -/
def floorQuotient (a b : Int) : Int := if IsCutUp a b then a.tdiv b - 1 else a.tdiv b

/-- The remainder that belongs to this quotient. -/
def floorRemainder (a b : Int) : Int := if IsCutUp a b then a.tmod b + b else a.tmod b

/-- A remainder is on the side of zero where the divisor is, and nearer to zero. -/
def IsRemainder (b r : Int) : Prop := 0 ≤ r ∧ r < b ∨ b < r ∧ r ≤ 0

/-- The remainder of the cut quotient has the sign of the dividend and is nearer to zero than the
divisor. -/
theorem tmod_bounds (a : Int) (hb : b ≠ 0) :
    (a.tmod b).natAbs < b.natAbs ∧ (0 ≤ a → 0 ≤ a.tmod b) ∧ (a ≤ 0 → a.tmod b ≤ 0) := by
  refine ⟨?_, Int.tmod_nonneg b, fun h => ?_⟩
  · rw [Int.natAbs_tmod]
    exact Nat.mod_lt _ (Int.natAbs_pos.2 hb)
  · have hneg := Int.tmod_nonneg b (Int.neg_nonneg_of_nonpos h)
    rw [Int.neg_tmod] at hneg
    omega

/-- The sign of the dividend can be read off the remainder, if there is one. -/
theorem isCutUp_iff (a : Int) (hb : b ≠ 0) :
    IsCutUp a b ↔ a.tmod b ≠ 0 ∧ ¬ (a.tmod b < 0 ↔ b < 0) := by
  obtain ⟨-, hnonneg, hnonpos⟩ := tmod_bounds a hb
  unfold IsCutUp
  omega

theorem floorQuotient_mul_add (a b : Int) : floorQuotient a b * b + floorRemainder a b = a := by
  have hcut := Int.tmod_add_tdiv_mul a b
  unfold floorQuotient floorRemainder
  split
  · rw [Int.sub_mul]
    omega
  · omega

theorem isRemainder_floorRemainder (a : Int) (hb : b ≠ 0) :
    IsRemainder b (floorRemainder a b) := by
  obtain ⟨hlt, hnonneg, hnonpos⟩ := tmod_bounds a hb
  unfold IsRemainder floorRemainder
  split
  · rename_i h
    unfold IsCutUp at h
    omega
  · rename_i h
    unfold IsCutUp at h
    omega

/-- A quotient with such a remainder is the exact quotient rounded down. -/
theorem floor_eq_of_isRemainder (h : q * b + r = a) (hr : IsRemainder b r) :
    ⌊(a : ℚ) / b⌋ = q := by
  have hexact : (q : ℚ) * b + r = a := by exact_mod_cast h
  rw [Int.floor_eq_iff]
  rcases hr with ⟨hr, hr'⟩ | ⟨hr, hr'⟩
  · have hb : (0 : ℚ) < b := by exact_mod_cast lt_of_le_of_lt hr hr'
    have hlow : (0 : ℚ) ≤ r := by exact_mod_cast hr
    have hhigh : (r : ℚ) < b := by exact_mod_cast hr'
    rw [le_div_iff₀ hb, div_lt_iff₀ hb]
    constructor <;> linarith
  · have hb : (b : ℚ) < 0 := by exact_mod_cast lt_of_lt_of_le hr hr'
    have hlow : (b : ℚ) < r := by exact_mod_cast hr
    have hhigh : (r : ℚ) ≤ 0 := by exact_mod_cast hr'
    rw [le_div_iff_of_neg hb, div_lt_iff_of_neg hb]
    constructor <;> linarith

/-- The corrected quotient is the exact one rounded down. -/
theorem floorQuotient_eq_floor (a : Int) (hb : b ≠ 0) : ⌊(a : ℚ) / b⌋ = floorQuotient a b :=
  floor_eq_of_isRemainder (floorQuotient_mul_add a b) (isRemainder_floorRemainder a hb)

end Unbounded

/-! ## Rounding down on words -/

section Words

variable {m n q r : Int64}

theorem quotient?_eq_none_iff :
    quotient? m n = .none ↔ n = 0 ∨ m = Int64.minValue ∧ n = -1 := by
  unfold quotient?
  split <;> simp_all

theorem toInt_of_quotient? (h : quotient? m n = some q) : q.toInt = m.toInt.tdiv n.toInt := by
  unfold quotient? at h
  split at h
  · cases h
  · rename_i hne
    obtain ⟨-, hne⟩ := not_or.1 hne
    cases h
    rcases not_and_or.1 hne with hm | hn
    · exact Int64.toInt_div_of_ne_left m n hm
    · exact Int64.toInt_div_of_ne_right m n hn

/-- The corrections on words are made exactly where those on integers without bounds are. -/
theorem isCutUp_toInt : (m % n ≠ 0 ∧ ¬ (m < 0 ↔ n < 0)) ↔ IsCutUp m.toInt n.toInt := by
  unfold IsCutUp
  rw [← Int64.toInt_mod, ← toInt_neg_iff, ← toInt_neg_iff, Ne, Ne, toInt_eq_zero_iff]

theorem isCutUp_toInt_mod (hn : n ≠ 0) :
    (m % n ≠ 0 ∧ ¬ (m % n < 0 ↔ n < 0)) ↔ IsCutUp m.toInt n.toInt := by
  rw [isCutUp_iff _ (mt toInt_eq_zero_iff.1 hn), ← Int64.toInt_mod, ← toInt_neg_iff,
    ← toInt_neg_iff, Ne, Ne, toInt_eq_zero_iff]

/-- Where the cut quotient is too large, the divisor is at least two in size, so that the quotient
is far from the least word. -/
theorem fits_cut_sub_one (hcut : IsCutUp m.toInt n.toInt) (hn : n ≠ 0) :
    Fits (m.toInt.tdiv n.toInt - 1) := by
  have hm := fits_toInt m
  obtain ⟨hlt, -⟩ := tmod_bounds m.toInt (mt toInt_eq_zero_iff.1 hn)
  have hrest := hcut.1
  have hsize : 2 ≤ n.toInt.natAbs := by omega
  have hquotient : (m.toInt.tdiv n.toInt).natAbs ≤ m.toInt.natAbs / 2 := by
    rw [Int.natAbs_tdiv]
    exact Nat.div_le_div_left hsize (by decide)
  unfold Fits at *
  omega

/-- The shifted remainder lies between zero and the divisor. -/
theorem fits_tmod_add (hcut : IsCutUp m.toInt n.toInt) (hn : n ≠ 0) :
    Fits (m.toInt.tmod n.toInt + n.toInt) := by
  have hfits := fits_toInt n
  have hrest := isRemainder_floorRemainder m.toInt (mt toInt_eq_zero_iff.1 hn)
  rw [floorRemainder, if_pos hcut] at hrest
  unfold IsRemainder at hrest
  unfold Fits at *
  omega

/-- A correction by one does not wrap. -/
theorem toInt_sub_one (hq : q.toInt = m.toInt.tdiv n.toInt) (hcut : IsCutUp m.toInt n.toInt)
    (hn : n ≠ 0) : (q - 1).toInt = q.toInt - 1 := by
  have hone : (1 : Int64).toInt = 1 := rfl
  rw [toInt_sub_of_fits, hone]
  rw [hone, hq]
  exact fits_cut_sub_one hcut hn

/-- A shift by the divisor does not wrap. -/
theorem toInt_mod_add (hcut : IsCutUp m.toInt n.toInt) (hn : n ≠ 0) :
    (m % n + n).toInt = (m % n).toInt + n.toInt := by
  rw [toInt_add_of_fits]
  rw [Int64.toInt_mod]
  exact fits_tmod_add hcut hn

theorem floorDivInt_of_none (hn : n ≠ 0) (h : quotient? m n = .none) :
    floorDivInt m n = .error (.integerOverflow "division") := by
  rw [floorDivInt, if_neg hn, h]

/-- **The quotient of words is rounded down.** -/
theorem toInt_floorDivInt (hn : n ≠ 0) (h : quotient? m n = some q) :
    ∃ k, floorDivInt m n = .ok k ∧ k.toInt = floorQuotient m.toInt n.toInt := by
  have hq := toInt_of_quotient? h
  rw [floorDivInt, if_neg hn, h]
  refine ⟨_, rfl, ?_⟩
  simp only [isCutUp_toInt, floorQuotient]
  split
  · rename_i hcut
    rw [toInt_sub_one hq hcut hn, hq]
  · exact hq

/-- By a divisor other than zero a word has a quotient, or it is the least one, and the divisor is
-1. -/
theorem floorDivInt_cases (hn : n ≠ 0) :
    (m = Int64.minValue ∧ n = -1) ∧ floorDivInt m n = .error (.integerOverflow "division") ∨
      ¬ (m = Int64.minValue ∧ n = -1) ∧
        ∃ k, floorDivInt m n = .ok k ∧ k.toInt = floorQuotient m.toInt n.toInt := by
  cases h : quotient? m n with
  | none => exact .inl ⟨(quotient?_eq_none_iff.1 h).resolve_left hn, floorDivInt_of_none hn h⟩
  | some q =>
    refine .inr ⟨fun hleast => ?_, toInt_floorDivInt hn h⟩
    rw [quotient?_eq_none_iff.2 (.inr hleast)] at h
    cases h

/-- **The remainder of words has the sign of the divisor.** -/
theorem toInt_floorModInt (hn : n ≠ 0) :
    ∃ r, floorModInt m n = .ok r ∧ r.toInt = floorRemainder m.toInt n.toInt := by
  rw [floorModInt, if_neg hn]
  refine ⟨_, rfl, ?_⟩
  simp only [isCutUp_toInt_mod hn, floorRemainder]
  split
  · rename_i hcut
    rw [toInt_mod_add hcut hn, Int64.toInt_mod]
  · exact Int64.toInt_mod m n

example : floorDivInt (-7) 2 = .ok (-4) ∧ floorModInt (-7) 2 = .ok 1 ∧
    floorDivInt 7 (-2) = .ok (-4) ∧ floorModInt 7 (-2) = .ok (-1) := by decide

/-! ### One step after another -/

/-- The remainder with the sign of the dividend. The step traps where there is no quotient. -/
def trappingMod (m n : Int64) : Option Int64 := (quotient? m n).map fun _ => m % n

/-- The same remainder where only zero traps. -/
def wrappingMod (m n : Int64) : Option Int64 := if n = 0 then .none else some (m % n)

/-- The quotient rounded down, step by step. The outer result is missing if a step traps. -/
def trappingFloorDiv (m n : Int64) : Option (Except Cause Int64) :=
  if n = 0 then some (.error .divisionByZero)
  else
    match quotient? m n with
    | .none => some (.error (.integerOverflow "division"))
    | some q => do
      let rest ← trappingMod m n
      if rest ≠ 0 ∧ ¬ (m < 0 ↔ n < 0) then return .ok (← ofInt? (q.toInt - 1)) else return .ok q

/-- The remainder with the sign of the divisor, step by step. -/
def trappingFloorMod (m n : Int64) : Option (Except Cause Int64) :=
  if n = 0 then some (.error .moduloByZero)
  else do
    let rest ← wrappingMod m n
    if rest ≠ 0 ∧ ¬ (rest < 0 ↔ n < 0) then return .ok (← ofInt? (rest.toInt + n.toInt))
    else return .ok rest

/-- No step of a division rounded down traps. -/
theorem trappingFloorDiv_eq (m n : Int64) : trappingFloorDiv m n = some (floorDivInt m n) := by
  unfold trappingFloorDiv floorDivInt
  split
  · rfl
  · rename_i hn
    cases h : quotient? m n with
    | none => rfl
    | some q =>
      -- where there is a quotient there is a remainder, and one less than the quotient fits
      have hrest : trappingMod m n = some (m % n) := by rw [trappingMod, h, Option.map_some]
      simp only [hrest, Option.bind_eq_bind, Option.bind_some, isCutUp_toInt]
      split
      · rename_i hcut
        rw [← toInt_sub_one (toInt_of_quotient? h) hcut hn, ofInt?_toInt]
        rfl
      · rfl

/-- No step of the remainder traps. -/
theorem trappingFloorMod_eq (m n : Int64) : trappingFloorMod m n = some (floorModInt m n) := by
  unfold trappingFloorMod floorModInt
  split
  · rfl
  · rename_i hn
    have hrest : wrappingMod m n = some (m % n) := if_neg hn
    simp only [hrest, Option.bind_eq_bind, Option.bind_some, isCutUp_toInt_mod hn]
    split
    · rename_i hcut
      rw [← toInt_mod_add hcut hn, ofInt?_toInt]
      rfl
    · rfl

end Words

/-! ## The operators -/

/-- A result for an exact integer: the integer, or an overflow if it does not fit a word. -/
def IsIntegerFor (t : Int) : Except Cause Value → Prop
  | .ok v => ∃ w, v = int w ∧ w.toInt = t
  | .error cause => cause.category = .overflowError ∧ ¬ Fits t

theorem isIntegerFor_exactly (t : Int) (operation : String) :
    IsIntegerFor t (exactly t operation) := by
  unfold exactly
  cases h : ofInt? t with
  | none => exact ⟨rfl, ofInt?_eq_none_iff.1 h⟩
  | some w => exact ⟨w, rfl, toInt_of_ofInt? h⟩

/-- What the operators `//` and `%` give for a divisor that is not zero. -/
structure IsDivision (m n : Int64) (quotient remainder : Except Cause Value) : Prop where
  /-- The quotient is rounded down. -/
  floor : IsIntegerFor ⌊(m.toInt : ℚ) / n.toInt⌋ quotient
  /-- Only the least word divided by -1 has no quotient. -/
  overflow : (∃ cause, quotient = .error cause) ↔ m = Int64.minValue ∧ n = -1
  /-- The remainder has the sign of the divisor and completes the quotient. -/
  remainder : ∃ r, remainder = .ok (int r) ∧ (0 < n → 0 ≤ r ∧ r < n) ∧ (n < 0 → n < r ∧ r ≤ 0) ∧
    ∀ q, quotient = .ok (int q) → m.toInt = q.toInt * n.toInt + r.toInt

variable {a b : Value} {m n r : Int64}

theorem isIntegerFor_floorDiv (hn : n ≠ 0) :
    IsIntegerFor ⌊(m.toInt : ℚ) / n.toInt⌋ ((floorDivInt m n).map int) := by
  rw [floorQuotient_eq_floor m.toInt (mt toInt_eq_zero_iff.1 hn)]
  rcases floorDivInt_cases (m := m) hn with ⟨⟨rfl, rfl⟩, herror⟩ | ⟨-, k, hk, hquotient⟩
  · rw [herror]
    exact ⟨rfl, by decide⟩
  · rw [hk]
    exact ⟨k, rfl, hquotient⟩

theorem floorDiv_fails_iff (hn : n ≠ 0) :
    (∃ cause, (floorDivInt m n).map int = .error cause) ↔ m = Int64.minValue ∧ n = -1 := by
  rcases floorDivInt_cases (m := m) hn with ⟨hleast, herror⟩ | ⟨hleast, k, hk, -⟩
  · rw [herror]
    exact iff_of_true ⟨_, rfl⟩ hleast
  · rw [hk]
    refine iff_of_false ?_ hleast
    rintro ⟨cause, hcause⟩
    cases hcause

/-- The remainder of words is on the side of zero where the divisor is. -/
theorem sides_of_remainder (hn : n ≠ 0) (hr : r.toInt = floorRemainder m.toInt n.toInt) :
    (0 < n → 0 ≤ r ∧ r < n) ∧ (n < 0 → n < r ∧ r ≤ 0) := by
  have hside := isRemainder_floorRemainder m.toInt (mt toInt_eq_zero_iff.1 hn)
  rw [← hr] at hside
  unfold IsRemainder at hside
  simp only [Int64.le_iff_toInt_le, Int64.lt_iff_toInt_lt, Int64.toInt_zero]
  omega

theorem isDivision (hn : n ≠ 0) :
    IsDivision m n ((floorDivInt m n).map int) ((floorModInt m n).map int) where
  floor := isIntegerFor_floorDiv hn
  overflow := floorDiv_fails_iff hn
  remainder := by
    obtain ⟨r, hmod, hr⟩ := toInt_floorModInt (m := m) hn
    obtain ⟨hpos, hneg⟩ := sides_of_remainder hn hr
    rw [hmod]
    refine ⟨r, rfl, hpos, hneg, fun q hq => ?_⟩
    rcases floorDivInt_cases (m := m) hn with ⟨-, herror⟩ | ⟨-, k, hk, hquotient⟩
    · rw [herror] at hq
      cases hq
    · rw [hk] at hq
      cases hq
      rw [hquotient, hr, floorQuotient_mul_add]

/-- For integers the operators come down to integer arithmetic. -/
theorem binary_of_asInt? (ha : a.asInt? = some m) (hb : b.asInt? = some n) :
    binary .add a b = exactly (m.toInt + n.toInt) "addition" ∧
    binary .sub a b = exactly (m.toInt - n.toInt) "subtraction" ∧
    binary .mul a b = exactly (m.toInt * n.toInt) "multiplication" ∧
    binary .floorDiv a b = (floorDivInt m n).map int ∧
    binary .mod a b = (floorModInt m n).map int := by
  cases a with
  | bool _ | int _ =>
    cases ha
    cases b with
    | bool _ | int _ =>
      cases hb
      exact ⟨rfl, rfl, rfl, rfl, rfl⟩
    | _ => cases hb
  | _ => cases ha

theorem isIntegerFor_neg (ha : a.asInt? = some m) :
    IsIntegerFor (-m.toInt) (unary .neg a) := by
  cases a with
  | bool b =>
    cases ha
    cases b
    · exact ⟨_, rfl, rfl⟩
    · exact ⟨_, rfl, rfl⟩
  | int n =>
    cases ha
    exact isIntegerFor_exactly _ _
  | _ => cases ha

theorem isIntegerFor_absolute (ha : a.asInt? = some m) :
    IsIntegerFor |m.toInt| (Builtin.absolute a) := by
  cases a with
  | bool b =>
    cases ha
    cases b
    · exact ⟨_, rfl, rfl⟩
    · exact ⟨_, rfl, rfl⟩
  | int n =>
    cases ha
    rw [Builtin.absolute, ← Int.abs_eq_natAbs]
    exact isIntegerFor_exactly _ _
  | _ => cases ha

theorem callFunction_abs (ev : Evaluator) (a : Value) :
    callFunction ev "abs" [a] = Eval.lift (Builtin.absolute a) := rfl

/-- Division fails for the divisor zero and no other one, as far as zero is the reason. -/
theorem isZeroDivision_iff :
    ((∃ cause, (floorDivInt m n).map int = .error cause ∧
      cause.category = .zeroDivisionError) ↔ n = 0) ∧
    ((∃ cause, (floorModInt m n).map int = .error cause ∧
      cause.category = .zeroDivisionError) ↔ n = 0) := by
  by_cases hn : n = 0
  · subst hn
    exact ⟨iff_of_true ⟨_, rfl, rfl⟩ rfl, iff_of_true ⟨_, rfl, rfl⟩ rfl⟩
  · refine ⟨iff_of_false ?_ hn, iff_of_false ?_ hn⟩
    · rintro ⟨cause, hcause, hcategory⟩
      rcases floorDivInt_cases (m := m) hn with ⟨-, herror⟩ | ⟨-, k, hk, -⟩
      · -- an overflow is reported as such
        rw [herror] at hcause
        cases hcause
        cases hcategory
      · rw [hk] at hcause
        cases hcause
    · rintro ⟨cause, hcause, -⟩
      obtain ⟨r, hr, -⟩ := toInt_floorModInt (m := m) hn
      rw [hr] at hcause
      cases hcause

/-- **The operators on integers give the exact result or fail.** Sums, differences, products,
negation and size are exact, or overflow where the exact result does not fit a word. Division by
zero and nothing else is reported as such; any other division is rounded down, overflows for the
least word and -1 only, and has a remainder with the sign of the divisor that completes it. Carried
out step by step, where a step that wraps traps, division gives the same results and never traps. -/
theorem integers_exact_or_fail :
    (∀ (a b : Value) (m n : Int64), a.asInt? = some m → b.asInt? = some n →
      IsIntegerFor (m.toInt + n.toInt) (binary .add a b) ∧
      IsIntegerFor (m.toInt - n.toInt) (binary .sub a b) ∧
      IsIntegerFor (m.toInt * n.toInt) (binary .mul a b) ∧
      ((∃ cause, binary .floorDiv a b = .error cause ∧
        cause.category = .zeroDivisionError) ↔ n = 0) ∧
      ((∃ cause, binary .mod a b = .error cause ∧
        cause.category = .zeroDivisionError) ↔ n = 0) ∧
      (n ≠ 0 → IsDivision m n (binary .floorDiv a b) (binary .mod a b))) ∧
    (∀ (a : Value) (m : Int64), a.asInt? = some m →
      IsIntegerFor (-m.toInt) (unary .neg a) ∧
      ∀ ev, ∃ size, callFunction ev "abs" [a] = Eval.lift size ∧ IsIntegerFor |m.toInt| size) ∧
    ∀ m n : Int64, trappingFloorDiv m n = some (floorDivInt m n) ∧
      trappingFloorMod m n = some (floorModInt m n) := by
  refine ⟨fun a b m n ha hb => ?_, fun a m ha => ?_, fun m n => ?_⟩
  · obtain ⟨hadd, hsub, hmul, hdiv, hmod⟩ := binary_of_asInt? ha hb
    rw [hadd, hsub, hmul, hdiv, hmod]
    exact ⟨isIntegerFor_exactly _ _, isIntegerFor_exactly _ _, isIntegerFor_exactly _ _,
      isZeroDivision_iff.1, isZeroDivision_iff.2, isDivision⟩
  · exact ⟨isIntegerFor_neg ha, fun ev => ⟨_, callFunction_abs ev a, isIntegerFor_absolute ha⟩⟩
  · exact ⟨trappingFloorDiv_eq m n, trappingFloorMod_eq m n⟩

/-- The least word divided by minus one overflows, and leaves no remainder. -/
theorem integers_exact_or_fail_least :
    asInt? (int Int64.minValue) = some Int64.minValue ∧ asInt? (int (-1)) = some (-1) ∧
      (-1 : Int64) ≠ 0 ∧
      IsDivision Int64.minValue (-1) (binary .floorDiv (int Int64.minValue) (int (-1)))
        (binary .mod (int Int64.minValue) (int (-1))) :=
  have hne : (-1 : Int64) ≠ 0 := by decide
  ⟨rfl, rfl, hne, (integers_exact_or_fail.1 _ _ _ _ rfl rfl).2.2.2.2.2 hne⟩

end Value

end Templating
