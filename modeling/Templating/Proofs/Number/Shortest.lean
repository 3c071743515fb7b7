import Templating.Proofs.Number.Rounding

/-!
# The fewest digits stand for the float

* `Interval.Contains`: the numbers between the ends of an interval.
* `Interval.contains_of_nearest?`, `Interval.nearest?_ne_none`, `Interval.exists_nearest?`: a grid
  point that is found lies in the interval, a point that lies in it is not missed, and a fine grid
  has one.
* `contains_iff_roundsTo`: the numbers in the interval of a float are those that are rounded to it.
* `roundsTo_shortest`: **the digits of a float are around it.**
* `length_shortest_le`: **no number with fewer digits is rounded to it.**
-/

namespace Templating.Decimal

open Binary64 (Canonical RoundsTo below)

namespace Interval

/-- A number is in an interval. -/
structure Contains (i : Interval) (x : ℚ) : Prop where
  low : i.low / i.denominator ≤ x
  high : x ≤ i.high / i.denominator
  ends : x = i.low / i.denominator ∨ x = i.high / i.denominator → i.closed

/-- The ends of an interval are around its number. -/
structure Proper (i : Interval) : Prop where
  denominator : 0 < i.denominator
  low : i.low < i.value
  high : i.value < i.high

variable {i : Interval} {g : Int} {n : Nat}

/-- The comparison of a grid point with an end, without fractions. -/
theorem scaled_le_iff (hi : i.Proper) {a n : Nat} {g : Int} :
    (a / i.denominator ≤ (n * 10 ^ g : ℚ) ↔
      a * 10 ^ (-g).toNat ≤ n * (i.denominator * 10 ^ g.toNat)) ∧
    ((n * 10 ^ g : ℚ) ≤ a / i.denominator ↔
      n * (i.denominator * 10 ^ g.toNat) ≤ a * 10 ^ (-g).toNat) := by
  have hd : (0 : ℚ) < i.denominator := by exact_mod_cast hi.denominator
  have hpower : (10 : ℚ) ^ g * 10 ^ (-g).toNat = 10 ^ g.toNat := by
    rw [← zpow_natCast, ← zpow_natCast, ← zpow_add₀ (by norm_num)]
    congr 1
    omega
  have hup : (0 : ℚ) < 10 ^ (-g).toNat := by positivity
  have hpoint : (n * 10 ^ g * i.denominator * 10 ^ (-g).toNat : ℚ) =
      n * (i.denominator * 10 ^ g.toNat) := by
    rw [← hpower]
    ring
  constructor
  · rw [div_le_iff₀ hd, ← mul_le_mul_iff_left₀ hup, hpoint]
    exact_mod_cast Iff.rfl
  · rw [le_div_iff₀ hd, ← mul_le_mul_iff_left₀ hup, hpoint]
    exact_mod_cast Iff.rfl

/-- One number is at most another one, and less if the ends do not belong to the interval. -/
def Within (i : Interval) (a b : Nat) : Prop := a ≤ b ∧ (a = b → i.closed)

instance (i : Interval) (a b : Nat) : Decidable (i.Within a b) :=
  inferInstanceAs (Decidable (a ≤ b ∧ (a = b → i.closed)))

theorem within_of_lt {a b : Nat} (h : a < b) : i.Within a b := ⟨h.le, fun heq => absurd heq h.ne⟩

/-- The grid points in the interval are those between the ends. -/
theorem contains_iff (hi : i.Proper) : i.Contains (n * 10 ^ g) ↔
    i.Within (i.low * 10 ^ (-g).toNat) (n * (i.denominator * 10 ^ g.toNat)) ∧
      i.Within (n * (i.denominator * 10 ^ g.toNat)) (i.high * 10 ^ (-g).toNat) := by
  constructor
  · rintro ⟨hlow, hhigh, hends⟩
    refine ⟨⟨(scaled_le_iff hi).1.1 hlow, fun h => hends (.inl ?_)⟩,
      ⟨(scaled_le_iff hi).2.1 hhigh, fun h => hends (.inr ?_)⟩⟩
    · exact le_antisymm ((scaled_le_iff hi).2.2 h.ge) hlow
    · exact le_antisymm hhigh ((scaled_le_iff hi).1.2 h.ge)
  · rintro ⟨hlow, hhigh⟩
    refine ⟨(scaled_le_iff hi).1.2 hlow.1, (scaled_le_iff hi).2.2 hhigh.1, fun h => ?_⟩
    rcases h with h | h
    · exact hlow.2 (le_antisymm hlow.1 ((scaled_le_iff hi).2.1 h.le))
    · exact hhigh.2 (le_antisymm hhigh.1 ((scaled_le_iff hi).1.1 h.ge))

theorem Within.trans {a b c : Nat} (h : i.Within a b) (h' : b ≤ c) : i.Within a c :=
  ⟨h.1.trans h', fun heq => h.2 (le_antisymm h.1 (heq ▸ h'))⟩

theorem Within.trans_le {a b c : Nat} (h : a ≤ b) (h' : i.Within b c) : i.Within a c :=
  ⟨h.trans h'.1, fun heq => h'.2 (le_antisymm h'.1 (heq ▸ h))⟩

/-- The last grid point that is not above the number. -/
def gridFloor (i : Interval) (g : Int) : Nat :=
  i.value * 10 ^ (-g).toNat / (i.denominator * 10 ^ g.toNat)

theorem inside_eq (a b : Nat) :
    (if i.closed then decide (a ≤ b) else decide (a < b)) = decide (i.Within a b) := by
  unfold Within
  split
  · simp [*]
  · simp [*, Nat.lt_iff_le_and_ne]

/-- The two grid points around the number are the only ones that are tried. -/
theorem nearest?_eq (i : Interval) (g : Int) :
    let q := i.gridFloor g
    let unit := i.denominator * 10 ^ g.toNat
    let down := i.Within (i.low * 10 ^ (-g).toNat) (q * unit)
    let above := i.Within ((q + 1) * unit) (i.high * 10 ^ (-g).toNat)
    i.nearest? g = some q ∧ down ∨ i.nearest? g = some (q + 1) ∧ above ∨
      i.nearest? g = none ∧ ¬ down ∧ ¬ above := by
  intro q unit down above
  have hnearest : i.nearest? g = if down ∧ (¬ above ∨
      2 * (i.value * 10 ^ (-g).toNat) < (2 * q + 1) * unit) then some q
      else if above then some (q + 1) else none := by
    simp [nearest?, inside_eq, q, down, above, unit, gridFloor]
  rw [hnearest]
  split
  · exact .inl ⟨rfl, And.left ‹_›⟩
  split
  · exact .inr (.inl ⟨rfl, ‹_›⟩)
  · exact .inr (.inr ⟨rfl, by tauto⟩)

/-- **A grid point that is found is in the interval.** -/
theorem contains_of_nearest? (hi : i.Proper) (h : i.nearest? g = some n) :
    i.Contains (n * 10 ^ g) := by
  have hup : 0 < 10 ^ (-g).toNat := Nat.pow_pos (by decide)
  have hunit : 0 < i.denominator * 10 ^ g.toNat :=
    Nat.mul_pos hi.denominator (Nat.pow_pos (by decide))
  have hlow := Nat.mul_lt_mul_of_pos_right hi.low hup
  have hhigh := Nat.mul_lt_mul_of_pos_right hi.high hup
  obtain ⟨heq, hdown⟩ | ⟨heq, habove⟩ | ⟨heq, -⟩ := nearest?_eq i g <;> rw [heq] at h <;> cases h
  · have hle : i.gridFloor g * _ ≤ _ := Nat.div_mul_le_self _ (i.denominator * 10 ^ g.toNat)
    exact (contains_iff hi).2 ⟨hdown, within_of_lt (hle.trans_lt hhigh)⟩
  · have hlt : _ < i.gridFloor g * _ + _ :=
      Nat.lt_div_mul_add (a := i.value * 10 ^ (-g).toNat) hunit
    rw [← Nat.succ_mul] at hlt
    exact (contains_iff hi).2 ⟨within_of_lt (hlow.trans hlt), habove⟩

/-- **A grid with a point in the interval is not passed over.** -/
theorem nearest?_ne_none (hi : i.Proper) (h : i.Contains (n * 10 ^ g)) : i.nearest? g ≠ none := by
  obtain ⟨hlow, hhigh⟩ := (contains_iff hi).1 h
  obtain ⟨heq, -⟩ | ⟨heq, -⟩ | ⟨-, hdown, habove⟩ := nearest?_eq i g
  · simp [heq]
  · simp [heq]
  -- the point is not above the number, or it is not below the next one
  rcases Nat.lt_or_ge (i.gridFloor g) n with hn | hn
  · exact absurd (hhigh.trans_le (Nat.mul_le_mul_right _ hn)) habove
  · exact absurd (hlow.trans (Nat.mul_le_mul_right _ hn)) hdown

/-- A number between one of the interval and the middle is in the interval. -/
theorem Contains.of_between {x y : ℚ} (hi : i.Proper) (h : i.Contains x) (hxy : x < y)
    (hy : y ≤ i.value / i.denominator) : i.Contains y := by
  have hd : (0 : ℚ) < i.denominator := by exact_mod_cast hi.denominator
  have hlow : (i.low / i.denominator : ℚ) < y := h.low.trans_lt hxy
  have hhigh : y < i.high / i.denominator := by
    refine hy.trans_lt ((div_lt_div_iff_of_pos_right hd).2 ?_)
    exact_mod_cast hi.high
  exact ⟨hlow.le, hhigh.le, fun h => h.elim (absurd · hlow.ne') (absurd · hhigh.ne)⟩

/-- What is found is at most the next grid point above the number. -/
theorem le_of_nearest? (h : i.nearest? g = some n) : n ≤ i.gridFloor g + 1 := by
  obtain ⟨heq, -⟩ | ⟨heq, -⟩ | ⟨heq, -⟩ := nearest?_eq i g <;> rw [heq] at h <;> cases h
  · exact Nat.le_succ _
  · exact le_rfl

/-- **A grid that is finer than the interval has a point in it.** -/
theorem exists_nearest? (hi : i.Proper)
    (h : (10 : ℚ) ^ g < i.high / i.denominator - i.low / i.denominator) :
    ∃ n, i.nearest? g = some n := by
  have hlength : 1 * (i.denominator * 10 ^ g.toNat) < (i.high - i.low) * 10 ^ (-g).toNat := by
    refine Nat.lt_of_not_le fun hle => h.not_ge ?_
    rw [← sub_div, ← Nat.cast_sub (hi.low.trans hi.high).le]
    simpa using (scaled_le_iff hi).1.2 hle
  obtain ⟨heq, -⟩ | ⟨heq, -⟩ | ⟨-, hdown, habove⟩ := nearest?_eq i g
  · exact ⟨_, heq⟩
  · exact ⟨_, heq⟩
  exfalso
  have hle : i.gridFloor g * _ ≤ _ := Nat.div_mul_le_self _ (i.denominator * 10 ^ g.toNat)
  have hdown' := Nat.le_of_not_lt fun hlt => hdown (within_of_lt hlt)
  have habove' := Nat.le_of_not_lt fun hlt => habove (within_of_lt hlt)
  rw [Nat.succ_mul] at habove'
  rw [Nat.sub_mul] at hlength
  omega

end Interval

/-! ## The search -/

/-- The first digit of a fraction is found. -/
theorem magnitude_le {num den : Nat} (hn : 0 < num) (hd : 0 < den) :
    (10 : ℚ) ^ magnitude num den ≤ num / den := by
  have hd' : (0 : ℚ) < den := by exact_mod_cast hd
  rw [magnitude, le_div_iff₀ hd']
  split
  · rename_i h
    have hpos : 0 < num / den := Nat.div_pos h hd
    have hlength : 0 < (Nat.toDigits 10 (num / den)).length := Nat.length_toDigits_pos
    have hle := Nat.mul_le_mul_right den (pow_length_toDigits_le hpos)
    rw [show ((Nat.toDigits 10 (num / den)).length : Int) - 1 =
      ((Nat.toDigits 10 (num / den)).length - 1 : ℕ) by omega, zpow_natCast]
    exact_mod_cast hle.trans (Nat.div_mul_le_self _ _)
  · have hlt := lt_pow_length_toDigits ((den - 1) / num)
    rw [Nat.div_lt_iff_lt_mul hn] at hlt
    have hle : den ≤ num * 10 ^ (Nat.toDigits 10 ((den - 1) / num)).length := by
      rw [mul_comm]
      omega
    rw [zpow_neg, zpow_natCast, inv_mul_le_iff₀ (by positivity), mul_comm]
    exact_mod_cast hle

theorem lt_magnitude {num den : Nat} (hn : 0 < num) (hd : 0 < den) :
    (num / den : ℚ) < 10 ^ (magnitude num den + 1) := by
  have hd' : (0 : ℚ) < den := by exact_mod_cast hd
  rw [magnitude, div_lt_iff₀ hd']
  split
  · have hlt := lt_pow_length_toDigits (num / den)
    rw [Nat.div_lt_iff_lt_mul hd] at hlt
    rw [sub_add_cancel, zpow_natCast]
    exact_mod_cast hlt
  · rename_i h
    have hlength : 0 < (Nat.toDigits 10 ((den - 1) / num)).length := Nat.length_toDigits_pos
    have hle : num * 10 ^ ((Nat.toDigits 10 ((den - 1) / num)).length - 1) < den := by
      by_cases hpos : 0 < (den - 1) / num
      · have hle := (Nat.le_div_iff_mul_le hn).1 (pow_length_toDigits_le hpos)
        rw [mul_comm] at hle
        omega
      · rw [Nat.eq_zero_of_not_pos hpos]
        simpa using h
    rw [show -((Nat.toDigits 10 ((den - 1) / num)).length : Int) + 1 =
      -((Nat.toDigits 10 ((den - 1) / num)).length - 1 : ℕ) by omega, zpow_neg, zpow_natCast,
      lt_inv_mul_iff₀ (by positivity), mul_comm]
    exact_mod_cast hle

/-- Zeros at the end of a significand are part of its exponent. -/
theorem strip_value (fuel s : Nat) (g : Int) :
    ((strip fuel s g).1 * 10 ^ (strip fuel s g).2 : ℚ) = s * 10 ^ g := by
  induction fuel generalizing s g with
  | zero => rfl
  | succ fuel ih =>
    rw [strip]
    split
    · rename_i h
      have hs : (s : ℚ) = 10 * (s / 10 : ℕ) := by
        have : s = 10 * (s / 10) := by omega
        exact_mod_cast this
      rw [ih, zpow_add_one₀ (by norm_num), hs]
      ring
    · rfl

section

variable {m : Nat} {e : Int}

/-- The ends over the denominator are those of the numbers that are rounded to a float. -/
theorem ofScaled_scale (e : Int) :
    (2 ^ (e - 2).toNat : ℚ) / (2 ^ (2 - e).toNat : ℚ) = 2 ^ e / 4 := by
  rw [← zpow_natCast, ← zpow_natCast, ← zpow_sub₀ (by norm_num),
    show ((e - 2).toNat : ℤ) - (2 - e).toNat = e - 2 by omega, zpow_sub₀ (by norm_num)]
  norm_num

theorem ofScaled_low (hm : 0 < m) :
    ((Interval.ofScaled m e).low : ℚ) / (Interval.ofScaled m e).denominator =
      (m - below m e) * 2 ^ e := by
  have hscale := ofScaled_scale e
  simp only [Interval.ofScaled, Nat.pow_eq, below]
  rw [Nat.cast_mul, mul_div_assoc]
  push_cast
  rw [hscale]
  by_cases h : m = 0x10000000000000 ∧ -1074 < e
  · rw [if_pos h, if_pos h]
    push_cast [show 1 ≤ 4 * m by omega]
    ring
  · rw [if_neg h, if_neg h]
    push_cast [show 2 ≤ 4 * m by omega]
    ring

theorem ofScaled_value :
    ((Interval.ofScaled m e).value : ℚ) / (Interval.ofScaled m e).denominator = m * 2 ^ e := by
  simp only [Interval.ofScaled, Nat.pow_eq]
  push_cast
  rw [mul_div_assoc, ofScaled_scale]
  ring

theorem ofScaled_high :
    ((Interval.ofScaled m e).high : ℚ) / (Interval.ofScaled m e).denominator =
      (m + 1 / 2) * 2 ^ e := by
  simp only [Interval.ofScaled, Nat.pow_eq]
  push_cast
  rw [mul_div_assoc, ofScaled_scale]
  ring

theorem ofScaled_proper (hm : 0 < m) : (Interval.ofScaled m e).Proper := by
  have hscale : 0 < 2 ^ (e - 2).toNat := Nat.two_pow_pos _
  refine ⟨Nat.two_pow_pos _, ?_, ?_⟩
  · simp only [Interval.ofScaled, Nat.pow_eq]
    exact Nat.mul_lt_mul_of_pos_right (by split <;> omega) hscale
  · simp only [Interval.ofScaled, Nat.pow_eq]
    exact Nat.mul_lt_mul_of_pos_right (by omega) hscale

/-- **The interval of a float holds the numbers that are rounded to it.** -/
theorem contains_iff_roundsTo {x : ℚ} (hm : 0 < m) :
    (Interval.ofScaled m e).Contains x ↔ RoundsTo m e (x / 2 ^ e) := by
  have hunit : (0 : ℚ) < 2 ^ e := by positivity
  have hclosed : (Interval.ofScaled m e).closed = true ↔ m % 2 = 0 := by simp [Interval.ofScaled]
  constructor
  · rintro ⟨hlow, hhigh, hends⟩
    rw [ofScaled_low hm] at hlow hends
    rw [ofScaled_high] at hhigh hends
    rw [← div_eq_iff hunit.ne', ← div_eq_iff hunit.ne'] at hends
    exact ⟨(le_div_iff₀ hunit).2 hlow, (div_le_iff₀ hunit).2 hhigh, fun h => hclosed.1 (hends h)⟩
  · rintro ⟨hlow, hhigh, heven⟩
    rw [div_eq_iff hunit.ne', div_eq_iff hunit.ne', ← ofScaled_low hm, ← ofScaled_high] at heven
    rw [le_div_iff₀ hunit, ← ofScaled_low hm] at hlow
    rw [div_le_iff₀ hunit, ← ofScaled_high] at hhigh
    exact ⟨hlow, hhigh, fun h => hclosed.2 (heven h)⟩

/-- The power of ten that the first digit of a float counts. -/
def leading (m : Nat) (e : Int) : Int :=
  magnitude (Interval.ofScaled m e).value (Interval.ofScaled m e).denominator

theorem pow_leading_le (hm : 0 < m) : (10 : ℚ) ^ leading m e ≤ m * 2 ^ e := by
  have hproper := ofScaled_proper (e := e) hm
  rw [← ofScaled_value]
  exact magnitude_le (Nat.zero_lt_of_lt hproper.low) hproper.denominator

theorem lt_pow_leading (hm : 0 < m) : (m * 2 ^ e : ℚ) < 10 ^ (leading m e + 1) := by
  have hproper := ofScaled_proper (e := e) hm
  rw [← ofScaled_value]
  exact lt_magnitude (Nat.zero_lt_of_lt hproper.low) hproper.denominator

/-- With seventeen digits there is a grid point in the interval of a float. -/
theorem exists_last (hc : Canonical m e) :
    ∃ n, (Interval.ofScaled m e).nearest? (leading m e - (16 : ℕ)) = some n := by
  refine Interval.exists_nearest? (ofScaled_proper hc.pos) ?_
  have hunit : (0 : ℚ) < 2 ^ e := by positivity
  have hlength : (m : ℚ) / 10 ^ 16 < below m e + 1 / 2 := by
    have hm : (m : ℚ) < 2 ^ 53 := by exact_mod_cast hc.lt
    rw [below]
    split
    · rename_i h
      rw [h.1]
      norm_num
    · linarith
  rw [ofScaled_low hc.pos, ofScaled_high, zpow_sub₀ (by norm_num), zpow_natCast,
    div_lt_iff₀ (by positivity)]
  calc (10 : ℚ) ^ leading m e ≤ m * 2 ^ e := pow_leading_le hc.pos
    _ = m / 10 ^ 16 * 2 ^ e * 10 ^ 16 := by ring
    _ < (below m e + 1 / 2) * 2 ^ e * 10 ^ 16 := by gcongr
    _ = ((m + 1 / 2) * 2 ^ e - (m - below m e) * 2 ^ e) * 10 ^ 16 := by ring

/-- The first number for which something is found. -/
theorem findSome?_range {β : Type} {f : ℕ → Option β} {k : ℕ} {b : β}
    (h : (List.range k).findSome? f = some b) : ∃ j, f j = some b ∧ ∀ i < j, f i = none := by
  obtain ⟨front, j, behind, hrange, hj, hfront⟩ := List.findSome?_eq_some_iff.1 h
  have hlength : front.length < k := by
    have hlengths := congrArg List.length hrange
    simp at hlengths
    omega
  have hget : (List.range k)[front.length]? = some j := by
    rw [hrange]
    simp
  rw [List.getElem?_range hlength] at hget
  obtain rfl := Option.some.inj hget
  refine ⟨front.length, hj, fun i hi => hfront i ?_⟩
  have happend : (front ++ front.length :: behind)[i]? = front[i]? :=
    List.getElem?_append_left hi
  have hmem : front[i]? = some i := by
    rw [← happend, ← hrange, List.getElem?_range (hi.trans hlength)]
  exact List.mem_of_getElem? hmem

/-- Some grid point is found, and coarser grids have none. -/
theorem shortest_eq (hc : Canonical m e) :
    ∃ n j : ℕ, (Interval.ofScaled m e).nearest? (leading m e - j) = some n ∧
      shortest m e = strip 20 n (leading m e - j) ∧
      ∀ i < j, (Interval.ofScaled m e).nearest? (leading m e - i) = none := by
  rw [shortest]
  simp only [List.findSome?_map]
  cases hfound : (List.range 17).findSome? _ with
  | none =>
    obtain ⟨n, hn⟩ := exists_last hc
    have hnone := Option.map_eq_none_iff.1 (List.findSome?_eq_none_iff.1 hfound 16 (by decide))
    exact absurd (hn.symm.trans hnone) (Option.some_ne_none n)
  | some found =>
    obtain ⟨j, hj, hnone⟩ := findSome?_range hfound
    obtain ⟨n, hn, rfl⟩ := Option.map_eq_some_iff.1 hj
    exact ⟨n, j, hn, rfl, fun i hi => Option.map_eq_none_iff.1 (hnone i hi)⟩

/-- **The digits of a float are around it.** -/
theorem roundsTo_shortest (hc : Canonical m e) :
    0 < (shortest m e).1 ∧
      RoundsTo m e ((shortest m e).1 * 10 ^ (shortest m e).2 / 2 ^ e) := by
  obtain ⟨n, j, hn, hs, -⟩ := shortest_eq hc
  have hrounds := (contains_iff_roundsTo hc.pos).1
    (Interval.contains_of_nearest? (ofScaled_proper hc.pos) hn)
  rw [hs, strip_value]
  refine ⟨Nat.pos_of_ne_zero fun hzero => ?_, hrounds⟩
  have hpos := hrounds.pos hc
  rw [← strip_value 20, hzero, Nat.cast_zero, zero_mul] at hpos
  exact hpos.false

/-! ## The fewest digits -/

theorem strip_le (fuel s : Nat) (g : Int) : (strip fuel s g).1 ≤ s := by
  induction fuel generalizing s g with
  | zero => exact le_rfl
  | succ fuel ih =>
    rw [strip]
    split
    · exact (ih _ _).trans (Nat.div_le_self _ _)
    · exact le_rfl

/-- What is found on a grid has no more digits than there are places down to the grid, but for a
power of ten. -/
theorem le_pow_of_nearest? {n j : ℕ} (hm : 0 < m)
    (h : (Interval.ofScaled m e).nearest? (leading m e - j) = some n) : n ≤ 10 ^ (j + 1) := by
  refine (Interval.le_of_nearest? h).trans (Nat.succ_le_of_lt ?_)
  have hfloor := (Interval.scaled_le_iff (ofScaled_proper (e := e) hm)).2.2
    (Nat.div_mul_le_self _ _ : (Interval.ofScaled m e).gridFloor (leading m e - j) * _ ≤ _)
  rw [ofScaled_value] at hfloor
  have hplaces : (10 : ℚ) ^ (leading m e + 1) = 10 ^ (j + 1) * 10 ^ (leading m e - j) := by
    rw [← zpow_natCast, ← zpow_add₀ (by norm_num)]
    congr 1
    push_cast
    ring
  have hlt := hfloor.trans_lt (lt_pow_leading hm)
  rw [hplaces] at hlt
  exact_mod_cast lt_of_mul_lt_mul_right hlt (by positivity)

section

variable {n j : ℕ} (hm : 0 < m)
  (hn : (Interval.ofScaled m e).nearest? (leading m e - j) = some n)
  (hnone : ∀ i < j, (Interval.ofScaled m e).nearest? (leading m e - i) = none)
include hm hnone

/-- No coarser grid has a point in the interval. -/
theorem not_contains_of_lt {i d : ℕ} (hi : i < j) :
    ¬ (Interval.ofScaled m e).Contains (d * 10 ^ (leading m e - i)) :=
  fun h => Interval.nearest?_ne_none (ofScaled_proper hm) h (hnone i hi)

include hn in
theorem length_strip_le (g : ℤ) : (Nat.toDigits 10 (strip 20 n g).1).length ≤ j + 1 := by
  rcases (le_pow_of_nearest? hm hn).eq_or_lt with hpow | hlt
  · -- a power of ten is a point of the coarsest grid
    have hzero : j = 0 := by
      by_contra hpos
      refine not_contains_of_lt hm hnone (d := 10) (Nat.pos_of_ne_zero hpos) ?_
      have hcontains := Interval.contains_of_nearest? (ofScaled_proper hm) hn
      have hpoint : (n * 10 ^ (leading m e - j) : ℚ) = (10 : ℕ) * 10 ^ (leading m e - (0 : ℕ)) := by
        rw [hpow]
        push_cast
        rw [← zpow_natCast, ← zpow_add₀ (by norm_num), ← zpow_one_add₀ (by norm_num)]
        congr 1
        push_cast
        ring
      rwa [hpoint] at hcontains
    subst hzero
    rw [hpow]
    exact (by decide : (Nat.toDigits 10 1).length ≤ 1)
  · have hstrip := (strip_le 20 n g).trans_lt hlt
    exact (Nat.length_toDigits_le_iff (by decide) (Nat.succ_pos j)).2 hstrip

theorem lt_length_of_contains {d : ℕ} {g : ℤ} (hd : 0 < d)
    (h : (Interval.ofScaled m e).Contains (d * 10 ^ g)) : j < (Nat.toDigits 10 d).length := by
  have hlength : 0 < (Nat.toDigits 10 d).length := Nat.length_toDigits_pos
  by_contra! hle
  by_cases hg : leading m e - ((Nat.toDigits 10 d).length - 1 : ℕ) ≤ g
  · -- the number lies on a coarser grid
    refine not_contains_of_lt hm hnone (i := (Nat.toDigits 10 d).length - 1)
      (d := d * 10 ^ (g - (leading m e - ((Nat.toDigits 10 d).length - 1 : ℕ))).toNat) (by omega) ?_
    have hpoint : ((d * 10 ^ (g - (leading m e - ((Nat.toDigits 10 d).length - 1 : ℕ))).toNat : ℕ) *
        10 ^ (leading m e - ((Nat.toDigits 10 d).length - 1 : ℕ)) : ℚ) = d * 10 ^ g := by
      push_cast
      rw [mul_assoc, ← zpow_natCast, ← zpow_add₀ (by norm_num)]
      congr 2
      omega
    rwa [hpoint]
  · -- a power of ten lies between the number and the float
    have hbelow : (d * 10 ^ g : ℚ) < 10 ^ leading m e :=
      (Binary64.zpow_digits_bounds (g := g) hd).2.trans_le
        (zpow_le_zpow_right₀ (by norm_num) (by omega))
    refine not_contains_of_lt hm hnone (i := 0) (d := 1) (by omega) ?_
    have hbetween := h.of_between (ofScaled_proper hm) hbelow
      (by rw [ofScaled_value]; exact pow_leading_le hm)
    simpa using hbetween

end

/-- **No number with fewer digits is rounded to a float.** -/
theorem length_shortest_le (hc : Canonical m e) {d : ℕ} {g : ℤ} (hd : 0 < d)
    (h : RoundsTo m e (d * 10 ^ g / 2 ^ e)) :
    (Nat.toDigits 10 (shortest m e).1).length ≤ (Nat.toDigits 10 d).length := by
  obtain ⟨n, j, hn, hs, hnone⟩ := shortest_eq hc
  rw [hs]
  exact (length_strip_le hc.pos hn hnone _).trans
    (lt_length_of_contains hc.pos hnone hd ((contains_iff_roundsTo hc.pos).2 h))

end

end Templating.Decimal
