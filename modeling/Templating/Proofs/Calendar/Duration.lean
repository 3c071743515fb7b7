import Mathlib.Data.Set.Function
import Templating.Proofs.Calendar.Compact
import Templating.Value.Operators

/-!
# Durations are whole numbers of microseconds

* `Duration.ofTotal?_eq_some_iff`, `Duration.ofTotal?_eq_none_iff`: the numbers of microseconds that
  make a duration, and those that make none.
* `Duration.compare_eq`: durations are ordered by their days, then seconds, then microseconds.
* `Duration.wideOfParts`, `wideAdd` and so on: the same arithmetic in words of 128 bits, one step
  after another.
* `duration_arithmetic_exact`: **durations are added, subtracted, negated and multiplied as the
  numbers of their microseconds are, or not at all**, and no step in words goes wrong unnoticed.
-/

namespace Templating

open Number

namespace Duration

/-! ## The duration of a number -/

/-- The microseconds after the last whole day. -/
def rest (d : Duration) : Nat := d.seconds * microsPerSecond + d.micros

theorem rest_lt (d : Duration) : d.rest < microsPerDay := by
  have hseconds := d.seconds_lt
  have hmicros := d.micros_lt
  simp only [rest, secondsPerDay, microsPerSecond, microsPerDay] at *
  omega

theorem total_eq (d : Duration) : d.total = d.days.toInt * microsPerDay + d.rest := by
  simp only [total, rest, Int.natCast_add, Int.natCast_mul]
  omega

theorem total_ediv (d : Duration) : d.total / microsPerDay = d.days.toInt := by
  have hrest := d.rest_lt
  rw [total_eq]
  simp only [microsPerDay] at *
  omega

/-- The microseconds of a duration lie where the days fit a word. -/
theorem fits_total (d : Duration) : Fits (d.total / microsPerDay) := by
  rw [total_ediv]
  exact fits_toInt d.days

theorem ofTotal?_total (d : Duration) : ofTotal? d.total = some d := by
  have h := d.ofParts?_self
  rw [ofParts?] at h
  rw [← h, total]
  congr 1
  simp only [secondsPerDay, microsPerSecond, microsPerDay]
  omega

theorem total_of_ofTotal? {t : Int} {d : Duration} (h : ofTotal? t = some d) : d.total = t := by
  obtain ⟨days, hdays, rfl⟩ := Option.map_eq_some_iff.1 h
  have hfloor := toInt_of_ofInt? hdays
  simp only [total, hfloor, microsPerSecond, microsPerDay]
  omega

/-- **The duration of some microseconds is the one that has as many.** -/
theorem ofTotal?_eq_some_iff {t : Int} {d : Duration} : ofTotal? t = some d ↔ d.total = t :=
  ⟨total_of_ofTotal?, fun h => h ▸ d.ofTotal?_total⟩

/-- There is no duration exactly if the days do not fit a word. -/
theorem ofTotal?_eq_none_iff {t : Int} : ofTotal? t = none ↔ ¬ Fits (t / microsPerDay) := by
  rw [ofTotal?, Option.map_eq_none_iff, ofInt?_eq_none_iff]

theorem total_injective : Function.Injective total := by
  intro a b h
  have ha := a.ofTotal?_total
  rw [h, ofTotal?_total] at ha
  exact (Option.some.inj ha).symm

theorem bijOn_total : Set.BijOn total Set.univ {t | Fits (t / microsPerDay)} := by
  refine ⟨fun d _ => d.fits_total, total_injective.injOn, fun t ht => ?_⟩
  cases h : ofTotal? t with
  | none => exact absurd ht (ofTotal?_eq_none_iff.1 h)
  | some d => exact ⟨d, trivial, total_of_ofTotal? h⟩

/-! ## The order of the components -/

/-- **The order by components is the order in time**, since the sign lies in the days. -/
theorem compare_eq (a b : Duration) :
    a.compare b = ((Ord.compare a.days.toInt b.days.toInt).then
      (Ord.compare a.seconds b.seconds)).then (Ord.compare a.micros b.micros) := by
  have ha := a.total_eq
  have hb := b.total_eq
  have harest := a.rest_lt
  have hbrest := b.rest_lt
  have hamicros := a.micros_lt
  have hbmicros := b.micros_lt
  simp only [rest, microsPerSecond, microsPerDay] at *
  -- the rest of a day is less than a day, so the first component that differs decides
  rcases Int.lt_trichotomy a.days.toInt b.days.toInt with hdays | hdays | hdays
  · rw [Int.compare_eq_lt.2 hdays]
    exact Int.compare_eq_lt.2 (by omega)
  · rw [Int.compare_eq_eq.2 hdays]
    rcases Nat.lt_trichotomy a.seconds b.seconds with hseconds | hseconds | hseconds
    · rw [Nat.compare_eq_lt.2 hseconds]
      exact Int.compare_eq_lt.2 (by omega)
    · rw [Nat.compare_eq_eq.2 hseconds]
      rcases Nat.lt_trichotomy a.micros b.micros with hmicros | hmicros | hmicros
      · rw [Nat.compare_eq_lt.2 hmicros]
        exact Int.compare_eq_lt.2 (by omega)
      · rw [Nat.compare_eq_eq.2 hmicros]
        exact Int.compare_eq_eq.2 (by omega)
      · rw [Nat.compare_eq_gt.2 hmicros]
        exact Int.compare_eq_gt.2 (by omega)
    · rw [Nat.compare_eq_gt.2 hseconds]
      exact Int.compare_eq_gt.2 (by omega)
  · rw [Int.compare_eq_gt.2 hdays]
    exact Int.compare_eq_gt.2 (by omega)

/-! ## Results that are durations -/

/-- A result for some microseconds: the duration that has as many, or nothing if the days do not fit
a word. -/
def IsFor (t : Int) : Option Duration → Prop
  | some d => d.total = t
  | none => ¬ Fits (t / microsPerDay)

theorem isFor_ofTotal? (t : Int) : IsFor t (ofTotal? t) := by
  cases h : ofTotal? t with
  | none => exact ofTotal?_eq_none_iff.1 h
  | some d => exact total_of_ofTotal? h

/-- The same for an operator, which reports an overflow if there is no such duration. -/
def IsValueFor (t : Int) (result : Except Cause Value) : Prop :=
  (∃ d, result = .ok (.duration d) ∧ d.total = t) ∨
    ∃ cause, result = .error cause ∧ cause.category = .overflowError ∧ ¬ Fits (t / microsPerDay)

theorem IsFor.durationOr {t : Int} {result : Option Duration} (h : IsFor t result)
    (operation : String) : IsValueFor t (Value.durationOr result operation) := by
  cases result with
  | none => exact .inr ⟨_, rfl, rfl, h⟩
  | some d => exact .inl ⟨d, rfl, h⟩

/-! ## Words of 128 bits -/

/-- A number in a word with sign, unless it overflows. -/
def word (bits : Nat) (n : Int) : Option Int :=
  if -2 ^ (bits - 1) ≤ n ∧ n < 2 ^ (bits - 1) then some n else none

theorem word_eq_some {bits : Nat} {n : Int} (h : -2 ^ (bits - 1) ≤ n) (h' : n < 2 ^ (bits - 1)) :
    word bits n = some n := if_pos ⟨h, h'⟩

/-- Days, seconds and microseconds. -/
def parts (d : Duration) : Int64 × Int × Int := (d.days, d.seconds, d.micros)

/-- Durations are the normalized components. -/
theorem bijOn_parts :
    Set.BijOn parts Set.univ
      {p | 0 ≤ p.2.1 ∧ p.2.1 < secondsPerDay ∧ 0 ≤ p.2.2 ∧ p.2.2 < microsPerSecond} := by
  refine ⟨fun d _ => ?_, fun a _ b _ h => ?_, ?_⟩
  · have hseconds := d.seconds_lt
    have hmicros := d.micros_lt
    exact ⟨Int.natCast_nonneg _, Int.ofNat_lt.2 hseconds, Int.natCast_nonneg _,
      Int.ofNat_lt.2 hmicros⟩
  · cases a
    cases b
    simp_all [parts]
  · rintro ⟨days, seconds, micros⟩ ⟨hseconds, hseconds', hmicros, hmicros'⟩
    refine ⟨⟨days, seconds.toNat, micros.toNat, (Int.toNat_lt hseconds).2 hseconds',
      (Int.toNat_lt hmicros).2 hmicros'⟩, trivial, ?_⟩
    simp only [parts, Int.toNat_of_nonneg hseconds, Int.toNat_of_nonneg hmicros]

/-- The microseconds of a duration, in words. -/
def wideTotal (d : Duration) : Option Int := do
  let days ← word 128 (d.days.toInt * microsPerDay)
  let seconds ← word 128 (d.seconds * microsPerSecond)
  let whole ← word 128 (days + seconds)
  word 128 (whole + d.micros)

/-- A number of microseconds divided into days, seconds and microseconds, in words; the last two
have 32 bits. The inner result is missing if the days are too many, which is noticed. -/
def wideParts (t : Int) : Option (Option (Int64 × Int × Int)) := do
  let days ← word 128 (t / microsPerDay)
  let rest ← word 128 (t % microsPerDay)
  let seconds ← word 32 (rest / microsPerSecond)
  let micros ← word 32 (rest % microsPerSecond)
  return (ofInt? days).map fun days => (days, seconds, micros)

/-- The duration of components, in words. -/
def wideOfParts (days seconds micros : Int64) : Option (Option (Int64 × Int × Int)) := do
  let fromDays ← word 128 (days.toInt * secondsPerDay)
  let whole ← word 128 (fromDays + seconds.toInt)
  let fromSeconds ← word 128 (whole * microsPerSecond)
  wideParts (← word 128 (fromSeconds + micros.toInt))

/-- The opposite duration, in words. -/
def wideNeg (d : Duration) : Option (Option (Int64 × Int × Int)) := do
  wideParts (← word 128 (-(← d.wideTotal)))

/-- The sum of two durations, in words. -/
def wideAdd (a b : Duration) : Option (Option (Int64 × Int × Int)) := do
  wideParts (← word 128 ((← a.wideTotal) + (← b.wideTotal)))

/-- The difference of two durations, in words. -/
def wideSub (a b : Duration) : Option (Option (Int64 × Int × Int)) := do
  wideParts (← word 128 ((← a.wideTotal) - (← b.wideTotal)))

/-- A multiple of a duration, in words. The multiplication is the one step that may overflow, and it
is looked whether it does. -/
def wideScale (d : Duration) (factor : Int64) : Option (Option (Int64 × Int × Int)) := do
  match word 128 ((← d.wideTotal) * factor.toInt) with
  | some t => wideParts t
  | none => return none

theorem total_bounds (d : Duration) : -2 ^ 100 ≤ d.total ∧ d.total < 2 ^ 100 := by
  have hfits := fits_toInt d.days
  have hrest := d.rest_lt
  rw [total_eq]
  simp only [Fits, microsPerDay] at *
  omega

theorem wideTotal_eq (d : Duration) : d.wideTotal = some d.total := by
  have hfits := fits_toInt d.days
  have hseconds := d.seconds_lt
  have hmicros := d.micros_lt
  simp only [Fits, secondsPerDay, microsPerSecond] at hfits hseconds hmicros
  simp (disch := omega) only [wideTotal, total, microsPerDay, microsPerSecond, word_eq_some,
    Option.bind_eq_bind, Option.bind_some]

/-- A number in a word is divided without an overflow. -/
theorem wideParts_eq {t : Int} (h : -2 ^ 127 ≤ t) (h' : t < 2 ^ 127) :
    wideParts t = some ((ofTotal? t).map parts) := by
  simp (disch := omega) only [wideParts, ofTotal?, microsPerDay, microsPerSecond, word_eq_some,
    Option.bind_eq_bind, Option.bind_some, Option.map_map]
  cases ofInt? (t / (86400000000 : Nat)) with
  | none => rfl
  | some days =>
    simp only [Option.pure_def, Option.map_some, Function.comp_apply, parts]
    congr 4 <;> omega

theorem wideOfParts_eq (days seconds micros : Int64) :
    wideOfParts days seconds micros =
      some ((ofParts? days.toInt seconds.toInt micros.toInt).map parts) := by
  have hdays := fits_toInt days
  have hseconds := fits_toInt seconds
  have hmicros := fits_toInt micros
  simp only [Fits] at hdays hseconds hmicros
  simp (disch := omega) only [wideOfParts, ofParts?, secondsPerDay, microsPerSecond, word_eq_some,
    wideParts_eq, Option.bind_eq_bind, Option.bind_some]

theorem wideNeg_eq (d : Duration) : d.wideNeg = some (d.neg?.map parts) := by
  have hd := d.total_bounds
  simp (disch := omega) only [wideNeg, neg?, wideTotal_eq, word_eq_some, wideParts_eq,
    Option.bind_eq_bind, Option.bind_some]

theorem wideAdd_eq (a b : Duration) : a.wideAdd b = some ((a.add? b).map parts) := by
  have ha := a.total_bounds
  have hb := b.total_bounds
  simp (disch := omega) only [wideAdd, add?, wideTotal_eq, word_eq_some, wideParts_eq,
    Option.bind_eq_bind, Option.bind_some]

theorem wideSub_eq (a b : Duration) : a.wideSub b = some ((a.sub? b).map parts) := by
  have ha := a.total_bounds
  have hb := b.total_bounds
  simp (disch := omega) only [wideSub, sub?, wideTotal_eq, word_eq_some, wideParts_eq,
    Option.bind_eq_bind, Option.bind_some]

/-- A product that overflows its word has too many days for a duration. -/
theorem wideScale_eq (d : Duration) (factor : Int64) :
    d.wideScale factor = some ((d.scale? factor.toInt).map parts) := by
  simp only [wideScale, scale?, wideTotal_eq, Option.bind_eq_bind, Option.bind_some]
  generalize d.total * factor.toInt = t
  by_cases h : -2 ^ 127 ≤ t ∧ t < 2 ^ 127
  · rw [word_eq_some h.1 h.2]
    exact wideParts_eq h.1 h.2
  · have hnone : ofTotal? t = none := by
      rw [ofTotal?_eq_none_iff]
      simp only [Fits, microsPerDay]
      omega
    rw [word, if_neg h, hnone]
    rfl

end Duration

open Duration in
/-- **The arithmetic of durations is that of the numbers of their microseconds.** Durations are the
normalized components, and they correspond to the numbers whose days fit a word. The constructor
and the operators give the duration of the exact result, or report that there is none. Carried out
in words of 128 bits, the same operations give the same results, and the only step that may overflow
is the multiplication, where the overflow is noticed. Durations are equal and ordered as the numbers
are, and the order of their components is the same. -/
theorem duration_arithmetic_exact :
    Set.BijOn parts Set.univ
      {p | 0 ≤ p.2.1 ∧ p.2.1 < secondsPerDay ∧ 0 ≤ p.2.2 ∧ p.2.2 < microsPerSecond} ∧
    Set.BijOn total Set.univ {t | Fits (t / microsPerDay)} ∧
    (∀ d : Duration, ofParts? d.days.toInt d.seconds d.micros = some d) ∧
    (∀ days seconds micros : Int64,
      IsFor ((days.toInt * 86400 + seconds.toInt) * 1000000 + micros.toInt)
        (ofParts? days.toInt seconds.toInt micros.toInt) ∧
      wideOfParts days seconds micros =
        some ((ofParts? days.toInt seconds.toInt micros.toInt).map parts)) ∧
    (∀ a : Duration, IsFor (-a.total) a.neg? ∧ a.wideNeg = some (a.neg?.map parts) ∧
      IsValueFor (-a.total) (Value.unary .neg (.duration a))) ∧
    (∀ a b : Duration, IsFor (a.total + b.total) (a.add? b) ∧
      a.wideAdd b = some ((a.add? b).map parts) ∧
      IsValueFor (a.total + b.total) (Value.binary .add (.duration a) (.duration b))) ∧
    (∀ a b : Duration, IsFor (a.total - b.total) (a.sub? b) ∧
      a.wideSub b = some ((a.sub? b).map parts) ∧
      IsValueFor (a.total - b.total) (Value.binary .sub (.duration a) (.duration b))) ∧
    (∀ (a : Duration) (n : Int64), IsFor (a.total * n.toInt) (a.scale? n.toInt) ∧
      a.wideScale n = some ((a.scale? n.toInt).map parts) ∧
      IsValueFor (a.total * n.toInt) (Value.binary .mul (.duration a) (.int n)) ∧
      IsValueFor (a.total * n.toInt) (Value.binary .mul (.int n) (.duration a))) ∧
    (∀ a b : Duration, (a = b ↔ a.total = b.total) ∧
      a.compare b = Ord.compare a.total b.total ∧
      a.compare b = ((Ord.compare a.days.toInt b.days.toInt).then
        (Ord.compare a.seconds b.seconds)).then (Ord.compare a.micros b.micros)) := by
  refine ⟨bijOn_parts, bijOn_total, ofParts?_self,
    fun days seconds micros => ⟨isFor_ofTotal? _, wideOfParts_eq ..⟩, fun a => ?_, fun a b => ?_,
    fun a b => ?_, fun a n => ?_, fun a b => ?_⟩
  · exact ⟨isFor_ofTotal? _, a.wideNeg_eq, (isFor_ofTotal? _).durationOr _⟩
  · exact ⟨isFor_ofTotal? _, a.wideAdd_eq b, (isFor_ofTotal? _).durationOr _⟩
  · exact ⟨isFor_ofTotal? _, a.wideSub_eq b, (isFor_ofTotal? _).durationOr _⟩
  · exact ⟨isFor_ofTotal? _, a.wideScale_eq n, (isFor_ofTotal? _).durationOr _,
      (isFor_ofTotal? _).durationOr _⟩
  · exact ⟨total_injective.eq_iff.symm, rfl, a.compare_eq b⟩

end Templating
