import Templating.Proofs.Calendar.Duration
import Templating.Proofs.Number.Quotient

/-!
# Durations divided by integers

A duration is divided in floating point, whatever the divisor. The microseconds of a duration of up
to 285 years are a number of 53 bits, so the result is exact for them. Beyond, the microseconds are
rounded before they are divided.

* `ofWord_beq_zero`: only zero counts as a division by zero.
* `trueDiv_eq`: the quotient of a duration by an integer, in exact arithmetic.
* `duration_division_exact`: **it is the exact quotient, down to a whole microsecond**, and it
  undoes a multiplication.
* `duration_division_rounds`: a longer duration that is not even the quotient of itself by one.
-/

namespace Templating

open Number Value

namespace Binary64

/-- A float that is not zero. -/
theorem Encodes.beq_zero {x : Float} {s : Float.Model.UnpackedFloat.Sign} {m : Nat} {e : Int}
    (hx : Encodes x s m e) : (x == 0) = false := by
  have hzero : (0 : Float).toModel.unpack = .zero .positive := by rfl
  change Float.Model.UnpackedFloat.beq x.toModel.unpack (0 : Float).toModel.unpack = false
  rw [hx.unpack, hzero]
  cases s <;> rfl

theorem ofWord_beq_zero {n : Int64} (hn : n ≠ 0) : (ofWord n == 0) = false := by
  have hne : n.toInt ≠ 0 := fun h => hn (Int64.toInt_inj.1 h)
  obtain ⟨m, e, -, hc, hm, -⟩ := exists_divisor (Int.natAbs_pos.2 hne) (natAbs_toInt_le n)
  exact (encodes_ofInt hne hc hm).beq_zero

end Binary64

open Binary64

variable {d p : Duration} {n : Int64}

/-- Dividing by an integer makes a number no larger. -/
theorem abs_floor_div_le {t n : Int} (ht : t.natAbs < 2 ^ 53) :
    -2 ^ 53 ≤ ⌊(t / n : ℚ)⌋ ∧ ⌊(t / n : ℚ)⌋ < 2 ^ 53 := by
  have hdiv : |(t / n : ℚ)| ≤ |(t : ℚ)| := by
    rw [abs_div]
    by_cases hn : n = 0
    · simp [hn]
    · have hone : (1 : ℚ) ≤ |(n : ℚ)| := by exact_mod_cast Int.one_le_abs hn
      exact div_le_self (abs_nonneg _) hone
  have habs : |(t : ℚ)| < 2 ^ 53 := by
    have hlt : |t| < 2 ^ 53 := abs_lt.2 ⟨by omega, by omega⟩
    exact_mod_cast hlt
  obtain ⟨hlow, hhigh⟩ := abs_lt.1 (hdiv.trans_lt habs)
  refine ⟨Int.le_floor.2 ?_, Int.floor_lt.2 ?_⟩
  · push_cast
    exact hlow.le
  · push_cast
    exact hhigh

/-- By an integer other than zero a duration is divided in floating point. -/
theorem trueDiv_eq_divFloat (d : Duration) (hn : n ≠ 0) :
    binary .trueDiv (.duration d) (.int n) = durationOr (d.divFloat? (ofWord n)) "division" := by
  change (if (ofWord n == 0) = true then _ else durationOr (d.divFloat? (ofWord n)) "division") = _
  rw [ofWord_beq_zero hn, if_neg Bool.false_ne_true]

/-- **The quotient is that of exact arithmetic** for microseconds of 53 bits. -/
theorem trueDiv_eq (hd : d.total.natAbs < 2 ^ 53) (hn : n ≠ 0) :
    binary .trueDiv (.duration d) (.int n) =
      durationOr (Duration.ofTotal? ⌊(d.total / n.toInt : ℚ)⌋) "division" := by
  have hne : n.toInt ≠ 0 := fun h => hn (Int64.toInt_inj.1 h)
  have hfloor : floor? (ofInt d.total / ofWord n) = some ⌊(d.total / n.toInt : ℚ)⌋ :=
    floor?_ofInt_div hd hne (natAbs_toInt_le n)
  rw [trueDiv_eq_divFloat d hn, Duration.divFloat?, ofWord_beq_zero hn,
    if_neg Bool.false_ne_true, Duration.ofFloatTotal?, hfloor, Option.bind_some]

theorem mul_eq_scale (d : Duration) (n : Int64) : binary .mul (.duration d) (.int n) =
    durationOr (d.scale? n.toInt) "multiplication" := rfl

theorem total_of_mul (h : binary .mul (.duration d) (.int n) = .ok (.duration p)) :
    p.total = d.total * n.toInt := by
  rw [mul_eq_scale] at h
  cases hscale : d.scale? n.toInt with
  | none =>
    rw [hscale] at h
    cases h
  | some e =>
    rw [hscale] at h
    cases h
    exact Duration.total_of_ofTotal? hscale

/-- **A duration of up to 285 years is divided exactly by every integer**, down to a whole
microsecond. Divided by one it stays as it is, and a multiple of it divided by the factor is the
duration again, if the multiple is no longer than that either. -/
theorem duration_division_exact (d : Duration) (n : Int64) (hd : d.total.natAbs < 2 ^ 53)
    (hn : n ≠ 0) :
    (∃ q, binary .trueDiv (.duration d) (.int n) = .ok (.duration q) ∧
      q.total = ⌊(d.total / n.toInt : ℚ)⌋) ∧
    binary .trueDiv (.duration d) (.int 1) = .ok (.duration d) ∧
    ∀ p, binary .mul (.duration d) (.int n) = .ok (.duration p) → p.total.natAbs < 2 ^ 53 →
      binary .trueDiv (.duration p) (.int n) = .ok (.duration d) := by
  have hne : n.toInt ≠ 0 := fun h => hn (Int64.toInt_inj.1 h)
  refine ⟨?_, ?_, fun p hmul hp => ?_⟩
  -- the quotient is no larger than the duration, so its days fit
  · obtain ⟨hlow, hhigh⟩ := abs_floor_div_le (n := n.toInt) hd
    rw [trueDiv_eq hd hn]
    cases h : Duration.ofTotal? ⌊(d.total / n.toInt : ℚ)⌋ with
    | none =>
      have hfits : Fits (⌊(d.total / n.toInt : ℚ)⌋ / microsPerDay) := by
        simp only [Fits, microsPerDay]
        omega
      exact absurd hfits (Duration.ofTotal?_eq_none_iff.1 h)
    | some q => exact ⟨q, rfl, Duration.total_of_ofTotal? h⟩
  · have hself : ⌊(d.total / (1 : Int64).toInt : ℚ)⌋ = d.total := by
      simp
    rw [trueDiv_eq hd (by decide), hself, Duration.ofTotal?_total]
    rfl
  · have hback : ⌊(p.total / n.toInt : ℚ)⌋ = d.total := by
      have hcast : (n.toInt : ℚ) ≠ 0 := by exact_mod_cast hne
      rw [total_of_mul hmul, Int.cast_mul, mul_div_cancel_right₀ _ hcast, Int.floor_intCast]
    rw [trueDiv_eq hp hn, hback, Duration.ofTotal?_total]
    rfl

/-- Less than a day back, in thirds. -/
theorem duration_division_exact_third :
    let d : Duration := ⟨-1, 86399, 999999, by decide, by decide⟩
    d.total.natAbs < 2 ^ 53 ∧ (3 : Int64) ≠ 0 ∧
      (∃ q, binary .trueDiv (.duration d) (.int 3) = .ok (.duration q) ∧ q.total = -1) ∧
      ∃ p, binary .mul (.duration d) (.int 3) = .ok (.duration p) ∧ p.total.natAbs < 2 ^ 53 ∧
        binary .trueDiv (.duration p) (.int 3) = .ok (.duration d) := by
  intro d
  have hd : d.total.natAbs < 2 ^ 53 := by decide +kernel
  have hn : (3 : Int64) ≠ 0 := by decide
  obtain ⟨⟨q, hq, htotal⟩, -, hback⟩ := duration_division_exact d 3 hd hn
  have hfloor : ⌊(d.total / (3 : Int64).toInt : ℚ)⌋ = -1 := by
    have hone : d.total = -1 := by decide +kernel
    have hthree : (3 : Int64).toInt = 3 := rfl
    rw [hone, hthree]
    norm_num
  obtain ⟨p, hp, hmul⟩ : ∃ p : Duration, p.total.natAbs < 2 ^ 53 ∧
      d.scale? (3 : Int64).toInt = some p :=
    ⟨⟨-1, 86399, 999997, by decide, by decide⟩, by decide +kernel, by decide +kernel⟩
  have hproduct : binary .mul (.duration d) (.int 3) = .ok (.duration p) := by
    rw [mul_eq_scale, hmul]
    rfl
  exact ⟨hd, hn, ⟨q, hq, htotal.trans hfloor⟩, p, hproduct, hp, hback p hproduct hp⟩

/-- **A duration of 292 years and a microsecond divided by one is not itself**: its microseconds are
rounded to 53 bits first. Multiplied by one it is itself, so the division does not undo that. -/
theorem duration_division_rounds :
    let d : Duration := ⟨106752, 0, 1, by decide, by decide⟩
    let q : Duration := ⟨106752, 0, 0, by decide, by decide⟩
    binary .mul (.duration d) (.int 1) = .ok (.duration d) ∧
      binary .trueDiv (.duration d) (.int 1) = .ok (.duration q) ∧
      q.total ≠ ⌊(d.total / (1 : Int64).toInt : ℚ)⌋ ∧ q ≠ d := by
  intro d q
  have hquotient : d.divFloat? (ofWord 1) = some q := by decide +kernel
  have hself : ⌊(d.total / (1 : Int64).toInt : ℚ)⌋ = d.total := by simp
  have hproduct : d.scale? (1 : Int64).toInt = some d := by decide +kernel
  refine ⟨?_, ?_, ?_, by decide⟩
  · rw [mul_eq_scale, hproduct]
    rfl
  · rw [trueDiv_eq_divFloat d (by decide), hquotient]
    rfl
  · rw [hself]
    decide +kernel

end Templating
