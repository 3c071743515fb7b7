import Templating.Proofs.Eval.Denote

/-!
# Ranges of numbers

An iterator over a range keeps the next number and a count of those that are left. The count is
taken once, from the bounds. The next number is found by an addition that is cut to the words; only
the addition after the last number can be cut.

* `Bounds`: the arguments of `range`.
* `lt_rangeLength_iff`: how many numbers of a progression come before the stop.
* `rangeCount_eq`: **the count that an iterator starts with is exact**.
* `trappingCount_eq`: it is computed without a step that wraps.
* `range_advances`: **what is left of a range is its numbers**.
* `ranges_exact`: **a range consists of the numbers before the stop**, over all words.
-/

namespace Templating

open Builtin Eval Number

/-- The arguments of `range`. -/
inductive Bounds where
  | upTo (stop : Int64)
  | between (start stop : Int64)
  | stepped (start stop step : Int64)

namespace Bounds

/-- The first number. -/
def first : Bounds → Int64
  | upTo _ => 0
  | between start _ | stepped start _ _ => start

/-- The number at which the range ends. -/
def last : Bounds → Int64
  | upTo stop | between _ stop | stepped _ stop _ => stop

/-- The difference between two numbers. -/
def step : Bounds → Int64
  | upTo _ | between .. => 1
  | stepped _ _ step => step

/-- The arguments as values. -/
def args : Bounds → List Value
  | upTo stop => [.int stop]
  | between start stop => [.int start, .int stop]
  | stepped start stop step => [.int start, .int stop, .int step]

/-- How many numbers there are. -/
def length (b : Bounds) : Nat := rangeLength b.first.toInt b.last.toInt b.step.toInt

/-- The `k`-th number of the progression that begins with the first number. -/
def number (b : Bounds) (k : ℕ) : ℤ := b.first.toInt + k * b.step.toInt

/-- A number comes before the stop, in the direction of the step. -/
def Precedes (b : Bounds) (n : ℤ) : Prop :=
  if 0 < b.step.toInt then n < b.last.toInt else b.last.toInt < n

end Bounds

theorem callFunction_range (ev : Evaluator) (bounds : Bounds) :
    callFunction ev "range" bounds.args = (do
      iterator (← lift (Cursor.range? "range" bounds.first bounds.last bounds.step))) := by
  have hname : Function.ofName? "range" = some .range := by rfl
  unfold callFunction
  simp only [hname]
  cases bounds <;> rfl

/-! ## How many numbers there are -/

/-- The `k`-th number of a range is before the stop. -/
theorem lt_rangeLength_iff {start stop step : Int} (hstep : step ≠ 0) (k : Nat) :
    k < rangeLength start stop step ↔
      if 0 < step then start + k * step < stop else stop < start + k * step := by
  unfold rangeLength
  split
  · rename_i hpos
    rw [Int.lt_toNat, Int.lt_iff_add_one_le, Int.le_ediv_iff_mul_le hpos]
    constructor <;> intro h <;> linarith
  · rename_i hneg
    rw [Int.lt_toNat, Int.lt_iff_add_one_le, Int.le_ediv_iff_mul_le (by omega)]
    constructor <;> intro h <;> linarith

theorem rangeLength_eq_zero_iff {start stop step : Int} (hstep : step ≠ 0) :
    rangeLength start stop step = 0 ↔ ¬ (if 0 < step then start < stop else stop < start) := by
  have hfirst : 0 < rangeLength start stop step ↔ _ := lt_rangeLength_iff hstep 0
  rw [Nat.cast_zero, zero_mul, add_zero] at hfirst
  rw [← hfirst]
  omega

/-- The numbers of a range are between its bounds. -/
theorem Bounds.fits (b : Bounds) (hb : b.step ≠ 0) {k : Nat} (hk : k < b.length) :
    Fits (b.first.toInt + k * b.step.toInt) := by
  have hstep : b.step.toInt ≠ 0 := fun h => hb (Int64.toInt_inj.1 h)
  have hbefore := (lt_rangeLength_iff hstep k).1 hk
  obtain ⟨hfirst, hfirst'⟩ := fits_toInt b.first
  obtain ⟨hlast, hlast'⟩ := fits_toInt b.last
  split at hbefore
  · have hnonneg : 0 ≤ k * b.step.toInt := by positivity
    constructor <;> linarith
  · have hnonpos : k * b.step.toInt ≤ 0 := mul_nonpos_of_nonneg_of_nonpos (by positivity) (by omega)
    constructor <;> linarith

/-- There are fewer numbers than words. -/
theorem rangeLength_lt (start stop : Int64) {step : Int} (hstep : step ≠ 0) :
    rangeLength start.toInt stop.toInt step < 0x10000000000000000 := by
  have hstart := fits_toInt start
  have hstop := fits_toInt stop
  unfold Fits at hstart hstop
  -- the number that is so many steps away is behind every stop
  refine Nat.lt_of_not_le fun hle => ?_
  have hfar : 0xffffffffffffffff < rangeLength start.toInt stop.toInt step := by omega
  have hbefore := (lt_rangeLength_iff hstep _).1 hfar
  push_cast at hbefore
  split at hbefore <;> omega

/-- Two ways to round a quotient up. -/
theorem ediv_add_one {span step : Int} (hstep : 0 < step) :
    (span - 1) / step + 1 = (span + step - 1) / step := by
  have hmul := Int.add_mul_ediv_right (span - 1) 1 hstep.ne'
  rw [one_mul] at hmul
  rw [← hmul]
  congr 1
  omega

theorem countWord_eq {n : Int} (h0 : 0 ≤ n) (hn : n.toNat < 0x10000000000000000) :
    countWord n = n.toNat := by
  unfold countWord
  rw [if_pos (by omega)]

/-- **The count that an iterator starts with is exact**: it fits its word, so it is not cut. -/
theorem rangeCount_eq (start stop : Int64) {step : Int} (hstep : step ≠ 0) :
    rangeCount start.toInt stop.toInt step = rangeLength start.toInt stop.toInt step := by
  have hlt := rangeLength_lt start stop hstep
  have hzero : rangeLength start.toInt stop.toInt step = 0 ↔ _ := rangeLength_eq_zero_iff hstep
  unfold rangeCount
  by_cases hpos : 0 < step
  · rw [if_pos hpos] at hzero
    by_cases hbefore : start.toInt < stop.toInt
    · have hnonneg : 0 ≤ (stop.toInt - start.toInt - 1) / step :=
        Int.ediv_nonneg (by omega) hpos.le
      rw [if_pos ⟨hpos, hbefore⟩]
      unfold rangeLength at hlt ⊢
      rw [if_pos hpos, ← ediv_add_one hpos] at hlt ⊢
      exact countWord_eq (by omega) hlt
    · rw [if_neg (fun h => hbefore h.2), if_neg (by omega), hzero.2 hbefore]
  · rw [if_neg hpos] at hzero
    rw [if_neg (fun h => hpos h.1)]
    by_cases hbefore : stop.toInt < start.toInt
    · have hnonneg : 0 ≤ (start.toInt - stop.toInt - 1) / -step :=
        Int.ediv_nonneg (by omega) (by omega)
      have hsum : (start.toInt - stop.toInt - 1) / -step + 1 = _ := ediv_add_one (by omega)
      rw [← sub_eq_add_neg] at hsum
      rw [if_pos ⟨by omega, hbefore⟩]
      unfold rangeLength at hlt ⊢
      rw [if_neg hpos, ← hsum] at hlt ⊢
      exact countWord_eq (by omega) hlt
    · rw [if_neg (fun h => hbefore h.2), hzero.2 hbefore]

/-- The iterator that is made for a range. -/
theorem Bounds.range?_eq (b : Bounds) (hb : b.step ≠ 0) (function : String) :
    Cursor.range? function b.first b.last b.step = .ok (.range b.first b.step b.length) := by
  have hstep : b.step.toInt ≠ 0 := fun h => hb (Int64.toInt_inj.1 h)
  rw [Cursor.range?, if_neg hb, rangeCount_eq b.first b.last hstep]
  rfl

/-! ## The count, one step after another -/

/-- An integer of 128 bits. -/
def wide? (n : Int) : Option Int :=
  if -0x80000000000000000000000000000000 ≤ n ∧ n < 0x80000000000000000000000000000000 then some n
  else none

/-- The steps from `low` on that stay before `high`, counted in 128 bits. The result is missing if
an operation wraps, or if the count does not fit a word. -/
def trappingSteps (low high step : Int) : Option Nat := do
  let span ← wide? (high - low)
  let rest ← wide? (span - 1)
  let steps ← wide? (rest.tdiv step)
  let count ← wide? (steps + 1)
  if 0 ≤ count ∧ count < 0x10000000000000000 then return count.toNat else none

/-- The count of a range, one step after another. -/
def trappingCount (start stop step : Int64) : Option Nat :=
  if 0 < step ∧ start < stop then trappingSteps start.toInt stop.toInt step.toInt
  else if step < 0 ∧ stop < start then do
    trappingSteps stop.toInt start.toInt (← wide? (-step.toInt))
  else return 0

theorem wide?_eq {n : Int} (hlow : -0x10000000000000000 ≤ n) (hhigh : n ≤ 0x10000000000000000) :
    wide? n = some n := by
  unfold wide?
  rw [if_pos (by omega)]

theorem trappingSteps_eq {low high step : Int} (hlow : Fits low) (hhigh : Fits high)
    (hlt : low < high) (hstep : 0 < step) :
    trappingSteps low high step = some (countWord ((high - low - 1) / step + 1)) := by
  unfold Fits at hlow hhigh
  have hnonneg : 0 ≤ high - low - 1 := by omega
  have hquotient : 0 ≤ (high - low - 1) / step := Int.ediv_nonneg hnonneg hstep.le
  have hle : (high - low - 1) / step ≤ high - low - 1 := Int.ediv_le_self _ hnonneg
  have hspan : wide? (high - low) = some (high - low) := wide?_eq (by omega) (by omega)
  have hrest : wide? (high - low - 1) = some (high - low - 1) := wide?_eq (by omega) (by omega)
  have hsteps : wide? ((high - low - 1) / step) = some ((high - low - 1) / step) :=
    wide?_eq (by omega) (by omega)
  have hcount : wide? ((high - low - 1) / step + 1) = some ((high - low - 1) / step + 1) :=
    wide?_eq (by omega) (by omega)
  have hfits : 0 ≤ (high - low - 1) / step + 1 ∧
      (high - low - 1) / step + 1 < 0x10000000000000000 := by omega
  simp only [trappingSteps, hspan, hrest, Int.tdiv_eq_ediv_of_nonneg hnonneg, hsteps, hcount,
    countWord, if_pos hfits, Option.bind_eq_bind, Option.bind_some]
  rfl

/-- **No step of the count wraps**, and it gives the count that an iterator starts with. -/
theorem trappingCount_eq (start stop step : Int64) :
    trappingCount start stop step = some (rangeCount start.toInt stop.toInt step.toInt) := by
  have hstart := fits_toInt start
  have hstop := fits_toInt stop
  have hstep := fits_toInt step
  have hzero : (0 : Int64).toInt = 0 := rfl
  simp only [trappingCount, rangeCount, Int64.lt_iff_toInt_lt, hzero]
  by_cases hup : 0 < step.toInt ∧ start.toInt < stop.toInt
  · rw [if_pos hup, if_pos hup]
    exact trappingSteps_eq hstart hstop hup.2 hup.1
  · rw [if_neg hup, if_neg hup]
    by_cases hdown : step.toInt < 0 ∧ stop.toInt < start.toInt
    · have hwide : wide? (-step.toInt) = some (-step.toInt) := by
        unfold Fits at hstep
        exact wide?_eq (by omega) (by omega)
      rw [if_pos hdown, if_pos hdown, hwide]
      exact trappingSteps_eq hstop hstart hdown.2 (by omega)
    · rw [if_neg hdown, if_neg hdown]
      rfl

/-! ## Advances -/

variable {s : Array Cell} {h : Handle} {next step : Int64} {n : ℕ}

/-- An advance takes the next number, if one is left. -/
theorem range_pulls (hcell : s[h]? = some ⟨.range next step (n + 1), false⟩) :
    ∃ s', Pulls s h (some (.int next)) s' ∧
      s'[h]? = some ⟨.range (addSaturating next step) step n, false⟩ := by
  have hlt : h < s.size := (Array.getElem?_eq_some_iff.1 hcell).1
  refine ⟨_, .of_steps hcell .range_succ, ?_⟩
  exact Array.getElem?_setIfInBounds_self_of_lt (by simpa using hlt)

theorem range_pulls_ended (hcell : s[h]? = some ⟨.range next step 0, false⟩) :
    ∃ s', Pulls s h none s' ∧ s'[h]? = some ⟨.range next step 0, false⟩ := by
  have hlt : h < s.size := (Array.getElem?_eq_some_iff.1 hcell).1
  refine ⟨_, .of_steps hcell .range_zero, ?_⟩
  exact Array.getElem?_setIfInBounds_self_of_lt (by simpa using hlt)

/-- What an iterator over `n` numbers answers when it is asked `j` times. -/
def rangeAnswers (start step : Int64) (n j : ℕ) : List (Option Value) :=
  (List.range j).map fun k : ℕ =>
    if k < n then some (.int (Int64.ofInt (start.toInt + k * step.toInt))) else none

theorem rangeAnswers_zero (start step : Int64) (j : ℕ) :
    rangeAnswers start step 0 (j + 1) = none :: rangeAnswers start step 0 j := by
  unfold rangeAnswers
  rw [List.range_succ_eq_map, List.map_cons, List.map_map]
  rfl

theorem rangeAnswers_succ (hfits : ∀ k < n + 1, Fits (next.toInt + k * step.toInt)) (j : ℕ) :
    rangeAnswers next step (n + 1) (j + 1) =
      some (.int next) :: rangeAnswers (addSaturating next step) step n j := by
  unfold rangeAnswers
  rw [List.range_succ_eq_map, List.map_cons, List.map_map]
  congr 1
  · simp
  · refine List.map_congr_left fun k _ => ?_
    simp only [Function.comp_apply, Nat.succ_lt_succ_iff]
    by_cases hk : k < n
    · rw [if_pos hk, if_pos hk, following_eq hfits hk]
    · rw [if_neg hk, if_neg hk]

/-- **What is left of a range is its numbers.** While a number is left, the iterator stands at it
exactly. -/
theorem range_advances (hcell : s[h]? = some ⟨.range next step n, false⟩)
    (hfits : ∀ k < n, Fits (next.toInt + k * step.toInt)) (j : ℕ) :
    ∃ next' s', Yields s (fun ev => (List.replicate j h).mapM ev.advance)
        (rangeAnswers next step n j) s' ∧
      s'[h]? = some ⟨.range next' step (n - j), false⟩ ∧
      (j < n → next'.toInt = next.toInt + j * step.toInt) := by
  -- one advance after another; the numbers that are left stay representable
  induction j generalizing s next n with
  | zero => exact ⟨next, s, .pure _, hcell, fun _ => by simp⟩
  | succ j ih =>
    simp only [List.replicate_succ, List.mapM_cons]
    cases n with
    | zero =>
      obtain ⟨s₁, hpull, hcell₁⟩ := range_pulls_ended hcell
      obtain ⟨next', s', hrest, hcell', -⟩ := ih hcell₁ hfits
      rw [Nat.zero_sub] at hcell' ⊢
      refine ⟨next', s', ?_, hcell', fun hlt => absurd hlt (Nat.not_lt_zero _)⟩
      rw [rangeAnswers_zero]
      exact hpull.bind (hrest.bind (.pure _))
    | succ n =>
      obtain ⟨s₁, hpull, hcell₁⟩ := range_pulls hcell
      obtain ⟨next', s', hrest, hcell', hnext'⟩ := ih hcell₁ (fits_following hfits)
      rw [Nat.succ_sub_succ]
      refine ⟨next', s', ?_, hcell', fun hlt => ?_⟩
      · rw [rangeAnswers_succ hfits]
        exact hpull.bind (hrest.bind (.pure _))
      · have hj : j < n := Nat.lt_of_succ_lt_succ hlt
        rw [hnext' hj, following_eq hfits hj]

/-! ## Ranges -/

/-- An iterator goes through the first `n` numbers of a progression, which are those before the
stop. -/
structure Bounds.GoesThrough (b : Bounds) (n : ℕ) (h : Handle) (m : Machine) : Prop where
  lt_iff : ∀ k : ℕ, k < n ↔ b.Precedes (b.number k)
  /-- No number is cut. -/
  toInt_number : ∀ k < n, (Int64.ofInt (b.number k)).toInt = b.number k
  /-- Asked any number of times, the iterator answers with the numbers one after another, and then
  with the end. While a number is left, it stands at that number. -/
  answers : ∀ j, ∃ next m', Gives (fun ev => (List.replicate j h).mapM ev.advance) m
      (.ok ((List.range j).map fun k =>
        if k < n then some (.int (Int64.ofInt (b.number k))) else none) m') ∧
    m'.store[h]? = some ⟨.range next b.step (n - j), false⟩ ∧
    (j < n → next.toInt = b.number j)

/-- **A range consists of the numbers before the stop**, over all words. A step of zero is refused.
Otherwise the count that the iterator starts with is computed without an operation that wraps, it is
less than `2 ^ 64`, and the iterator goes through as many numbers, each of which is exact, and ends
for good. -/
theorem ranges_exact (ev : Evaluator) (b : Bounds) (m : Machine) :
    (b.step = 0 → ∃ e, callFunction ev "range" b.args m = .error (.failed e) m ∧
      e.category = .valueError) ∧
    (b.step ≠ 0 → ∃ h n m₁, callFunction ev "range" b.args m = .ok (.iterator h) m₁ ∧
      trappingCount b.first b.last b.step = some n ∧ n < 0x10000000000000000 ∧
      b.GoesThrough n h m₁) := by
  constructor
  · intro hzero
    refine ⟨.ofCause (.zeroStep "range"), ?_, rfl⟩
    rw [callFunction_range, Cursor.range?, if_pos hzero]
    rfl
  · intro hstep
    have hne : b.step.toInt ≠ 0 := fun h => hstep (Int64.toInt_inj.1 h)
    have hfits (k : ℕ) (hk : k < b.length) : Fits (b.number k) := b.fits hstep hk
    have hcell : (m.store.push ⟨.range b.first b.step b.length, false⟩)[m.store.size]? =
        some ⟨.range b.first b.step b.length, false⟩ := by simp
    refine ⟨m.store.size, b.length,
      { m with store := m.store.push ⟨.range b.first b.step b.length, false⟩ }, ?_, ?_,
      rangeLength_lt b.first b.last hne, lt_rangeLength_iff hne, fun k hk => ?_, fun j => ?_⟩
    · rw [callFunction_range, b.range?_eq hstep]
      rfl
    · rw [trappingCount_eq, rangeCount_eq b.first b.last hne]
      rfl
    · exact Int64.toInt_ofInt_of_le (hfits k hk).1 (hfits k hk).2
    · obtain ⟨next, s', hrun, hcell', hnext⟩ := range_advances hcell hfits j
      exact ⟨next, _, hrun m, hcell', hnext⟩

/-- The widest steps up, after the last of which an addition is cut, and a step of zero. -/
theorem ranges_exact_widest :
    let ev := Evaluator.within 0
    let m := Machine.start 0 0 .first (.ofVars [] 0)
    let b : Bounds := .stepped Int64.minValue Int64.maxValue Int64.maxValue
    let still : Bounds := .stepped 5 0 0
    b.step ≠ 0 ∧ (∃ h m₁, callFunction ev "range" b.args m = .ok (.iterator h) m₁ ∧
      b.GoesThrough 3 h m₁) ∧
    still.step = 0 ∧ ∃ e, callFunction ev "range" still.args m = .error (.failed e) m ∧
      e.category = .valueError := by
  intro ev m b still
  have hstep : b.step ≠ 0 := by decide
  obtain ⟨h, n, m₁, hcall, hcount, -, hthrough⟩ := (ranges_exact ev b m).2 hstep
  have hthree : trappingCount b.first b.last b.step = some 3 := by decide
  obtain rfl : 3 = n := Option.some_inj.1 (hthree.symm.trans hcount)
  exact ⟨hstep, ⟨h, m₁, hcall, hthrough⟩, rfl, (ranges_exact ev still m).1 rfl⟩

end Templating
