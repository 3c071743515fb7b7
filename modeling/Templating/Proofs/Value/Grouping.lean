import Templating.Proofs.Calendar.Line
import Templating.Proofs.Calendar.Months

/-!
# The two groupings of a sum

`a op (b op c)` and `(a op b) op c` are written alike for `+`, `*`, `and` and `or`.

* `Value.Family`, `Family.sum?`, `Family.product?`: the types of sums and products.
* `Value.Reaches`: a result that has a property, or is missing because of a limit.
* `Value.SameOrLimit`: two results that are one value, or both missing, where the one may also be
  missing because of a limit.
* `Value.add_isSum`: sums of numbers, durations, months and dates add up measures.
* `Value.IsShifted`: dates shifted by months.
* `Value.add_grouping`: **the groupings of a sum give one value**, unless a limit is passed on the
  way or a date is shifted by months unevenly.
-/

namespace Templating

open Number

/-- The causes that lie in the size of a result: it is too large for its type, outside the calendar,
or a repetition is negative or too long. -/
def Cause.IsLimit : Cause → Prop
  | integerOverflow _ | negativeRepetition | repetitionTooLarge .. | calendar .outOfRange => True
  | _ => False

namespace Value

/-- What `+` and `*` tell apart. -/
inductive Family where
  | number | float | text | list | date | duration | months | other
deriving DecidableEq

/-- The family of a value; truth values count as numbers. -/
def family : Value → Family
  | bool _ | int _ => .number
  | float _ => .float
  | str _ => .text
  | list _ => .list
  | date _ => .date
  | duration _ => .duration
  | months _ => .months
  | none | dict _ | color _ | template _ | iterator _ => .other

/-- The family of a sum, if the summands can be added. -/
def Family.sum? : Family → Family → Option Family
  | number, number => some number
  | float, number | number, float | float, float => some float
  | text, text => some text
  | list, list => some list
  | duration, duration => some duration
  | months, months => some months
  | date, duration | duration, date | date, months | months, date => some date
  | _, _ => .none

/-- The family of a product, if the factors can be multiplied. -/
def Family.product? : Family → Family → Option Family
  | number, number => some number
  | float, number | number, float | float, float => some float
  | text, number | number, text => some text
  | list, number | number, list => some list
  | duration, number | number, duration | duration, float | float, duration => some duration
  | months, number | number, months | months, float | float, months => some months
  | _, _ => .none

/-! ## Families of results -/

/-- A result, if there is one, is in a family. -/
def InFamily (f : Option Family) (r : Except Cause Value) : Prop :=
  ∀ v, r = .ok v → f = some v.family

theorem inFamily_ok (v : Value) : InFamily (some v.family) (.ok v) := by
  rintro _ ⟨⟩
  rfl

theorem inFamily_error (f : Option Family) (cause : Cause) : InFamily f (.error cause) := nofun

theorem inFamily_exactly (n : Int) (operation : String) :
    InFamily (some .number) (exactly n operation) := by
  unfold exactly
  split
  · exact inFamily_ok _
  · exact inFamily_error _ _

theorem inFamily_durationOr (d : Option Duration) (operation : String) :
    InFamily (some .duration) (durationOr d operation) := by
  unfold durationOr
  split
  · exact inFamily_ok _
  · exact inFamily_error _ _

theorem inFamily_monthsOr (n : Int) (operation : String) :
    InFamily (some .months) (monthsOr n operation) := by
  unfold monthsOr
  split
  · exact inFamily_ok _
  · exact inFamily_error _ _

theorem inFamily_dateOr (r : Except Calendar.Error Date) : InFamily (some .date) (dateOr r) := by
  cases r with
  | ok d => exact inFamily_ok _
  | error e => exact inFamily_error _ _

theorem inFamily_map {α : Type} {f : Family} (r : Except Cause α) {v : α → Value}
    (h : ∀ x, (v x).family = f) : InFamily (some f) (r.map v) := by
  cases r with
  | ok x => exact h x ▸ inFamily_ok _
  | error e => exact inFamily_error _ _

theorem inFamily_bind {α : Type} {f : Option Family} (r : Except Cause α)
    {next : α → Except Cause Value} (h : ∀ x, InFamily f (next x)) : InFamily f (r >>= next) := by
  cases r with
  | ok x => exact h x
  | error e => exact inFamily_error _ _

/-- Sums of values are in the sum of their families, which exists if the sum does. -/
theorem inFamily_add (a b : Value) : InFamily (Family.sum? a.family b.family) (a.add b) := by
  cases a <;> cases b <;> first
    | exact inFamily_error _ _
    | exact inFamily_ok _
    | exact inFamily_exactly _ _
    | exact inFamily_durationOr _ _
    | exact inFamily_monthsOr _ _
    | exact inFamily_dateOr _

/-- Products of values are in the product of their families, which exists if the product does. -/
theorem inFamily_mul (a b : Value) : InFamily (Family.product? a.family b.family) (a.mul b) := by
  cases a <;> cases b <;> first
    | exact inFamily_error _ _
    | exact inFamily_ok _
    | exact inFamily_exactly _ _
    | exact inFamily_durationOr _ _
    | exact inFamily_monthsOr _ _
    | exact inFamily_bind _ fun _ => inFamily_monthsOr _ _
    | exact inFamily_map _ fun _ => rfl

/-! ## Results that a size may prevent -/

/-- A result has a property, or is missing for a limit. -/
def Reaches (P : Value → Prop) : Except Cause Value → Prop
  | .ok v => P v
  | .error cause => cause.IsLimit

/-- Two results are the same value or both missing, or one of them is missing for a limit. -/
def SameOrLimit : Except Cause Value → Except Cause Value → Prop
  | .ok v, .ok w => v = w
  | .error _, .error _ => True
  | .error cause, .ok _ | .ok _, .error cause => cause.IsLimit

variable {a b c v w : Value} {P Q : Value → Prop} {r s : Except Cause Value}

theorem Reaches.mono (hr : Reaches P r) (h : ∀ v, P v → Q v) : Reaches Q r := by
  cases r with
  | ok v => exact h v hr
  | error cause => exact hr

theorem Reaches.bind {next : Value → Except Cause Value} (hr : Reaches P r)
    (h : ∀ v, P v → Reaches Q (next v)) : Reaches Q (r >>= next) := by
  cases r with
  | ok v => exact h v hr
  | error cause => exact hr

theorem Reaches.sameOrLimit (hr : Reaches P r) (hs : Reaches P s)
    (hunique : ∀ v w, P v → P w → v = w) : SameOrLimit r s := by
  cases r with
  | ok v =>
    cases s with
    | ok w => exact hunique v w hr hs
    | error cause => exact hs
  | error cause =>
    cases s with
    | ok w => exact hr
    | error cause => trivial

theorem SameOrLimit.of_eq (h : r = s) : SameOrLimit r s := by
  subst h
  cases r with
  | ok v => rfl
  | error cause => trivial

/-- Results of families that do not exist are both missing. -/
theorem SameOrLimit.of_none (hr : InFamily .none r) (hs : InFamily .none s) : SameOrLimit r s := by
  cases r with
  | ok v => cases hr v rfl
  | error cause =>
    cases s with
    | ok w => cases hs w rfl
    | error cause => trivial

/-! ## Sums -/

namespace Family

/-- All families. -/
def all : List Family := [number, float, text, list, date, duration, months, other]

theorem mem_all (f : Family) : f ∈ all := by cases f <;> decide

/-- The families whose values have a measure. -/
def isMeasured : Family → Bool
  | number | date | duration | months => true
  | _ => false

/-- Whether a sum shifts a date by months. -/
def isShift : Family → Family → Bool
  | date, months | months, date => true
  | _, _ => false

/-- The summands are a date and two numbers of months. -/
def ShiftedTwice (x y z : Family) : Prop := [x, y, z].Perm [date, months, months]

/-- The summands are a date, some months and a duration. -/
def ShiftedAndMoved (x y z : Family) : Prop := [x, y, z].Perm [date, months, duration]

instance (x y z : Family) : Decidable (ShiftedTwice x y z) :=
  inferInstanceAs (Decidable (List.Perm _ _))

instance (x y z : Family) : Decidable (ShiftedAndMoved x y z) :=
  inferInstanceAs (Decidable (List.Perm _ _))

/-- Both groupings of three families have the same sum, all sums are measured, and no date is
shifted by months. -/
def sumsMeasured (x y z : Family) : Bool :=
  (sum? y z).any fun s => (sum? x y).any fun t => (sum? x s).any fun u =>
    s.isMeasured && t.isMeasured && u.isMeasured && sum? t z = some u &&
      !(isShift y z || isShift x s || isShift x y || isShift t z)

/-- Where dates are not shifted by months, both groupings have no sum, or they are texts or lists
joined, or the sum is measured. -/
theorem sum_cases (x y z : Family) (hx : x ≠ float) (hy : y ≠ float) (hz : z ≠ float)
    (htwice : ¬ ShiftedTwice x y z) (hmoved : ¬ ShiftedAndMoved x y z) :
    ((sum? y z).bind (sum? x) = .none ∧ (sum? x y).bind (sum? · z) = .none) ∨
      (x = text ∧ y = text ∧ z = text) ∨ (x = list ∧ y = list ∧ z = list) ∨
      sumsMeasured x y z = true := by
  have hall : ∀ x ∈ all, ∀ y ∈ all, ∀ z ∈ all, x ≠ float → y ≠ float → z ≠ float →
      ¬ ShiftedTwice x y z → ¬ ShiftedAndMoved x y z →
      ((sum? y z).bind (sum? x) = .none ∧ (sum? x y).bind (sum? · z) = .none) ∨
        (x = text ∧ y = text ∧ z = text) ∨ (x = list ∧ y = list ∧ z = list) ∨
        sumsMeasured x y z = true := by decide
  exact hall x (mem_all x) y (mem_all y) z (mem_all z) hx hy hz htwice hmoved

theorem ShiftedTwice.cases {x y z : Family} (h : ShiftedTwice x y z) :
    (x = date ∧ y = months ∧ z = months) ∨ (x = months ∧ y = date ∧ z = months) ∨
      (x = months ∧ y = months ∧ z = date) := by
  have hall : ∀ x ∈ all, ∀ y ∈ all, ∀ z ∈ all, ShiftedTwice x y z →
      (x = date ∧ y = months ∧ z = months) ∨ (x = months ∧ y = date ∧ z = months) ∨
        (x = months ∧ y = months ∧ z = date) := by decide
  exact hall x (mem_all x) y (mem_all y) z (mem_all z) h

end Family

/-- What a sum adds up: numbers, microseconds, months, and the instants of dates. -/
def measure : Value → Int
  | bool b => (ofBool b).toInt
  | int n => n.toInt
  | date d => d.instant
  | duration d => d.total
  | months m => m.count.toInt
  | _ => 0

/-- A value of a family with some measure. Truth values are no sums. -/
def IsSum (f : Family) (t : Int) (v : Value) : Prop :=
  v.family = f ∧ v.measure = t ∧ ∀ b, v ≠ bool b

/-- The measure determines the sum. -/
theorem IsSum.unique {f : Family} {t : Int} (hf : f.isMeasured) (hv : IsSum f t v)
    (hw : IsSum f t w) : v = w := by
  obtain ⟨hfv, htv, hbv⟩ := hv
  obtain ⟨hfw, htw, hbw⟩ := hw
  have hfamily : v.family = w.family := hfv.trans hfw.symm
  have hmeasure : v.measure = w.measure := htv.trans htw.symm
  subst hfv
  cases v <;> cases w <;> cases hfamily <;> first
    | exact Bool.noConfusion hf
    | exact absurd rfl (hbv _)
    | exact absurd rfl (hbw _)
    | exact congrArg int (Int64.toInt_inj.1 hmeasure)
    | exact congrArg date (Date.instant_injective hmeasure)
    | exact congrArg duration (Duration.total_injective hmeasure)
    | exact congrArg (fun n => months ⟨n⟩) (Int64.toInt_inj.1 hmeasure)

theorem reaches_exactly (n : Int) (operation : String) :
    Reaches (IsSum .number n) (exactly n operation) := by
  unfold exactly
  cases h : ofInt? n with
  | none => trivial
  | some k => exact ⟨rfl, toInt_of_ofInt? h, fun _ => Value.noConfusion⟩

theorem reaches_monthsOr (n : Int) (operation : String) :
    Reaches (IsSum .months n) (monthsOr n operation) := by
  unfold monthsOr
  cases h : ofInt? n with
  | none => trivial
  | some k => exact ⟨rfl, toInt_of_ofInt? h, fun _ => Value.noConfusion⟩

theorem reaches_durationOr (t : Int) (operation : String) :
    Reaches (IsSum .duration t) (durationOr (Duration.ofTotal? t) operation) := by
  cases h : Duration.ofTotal? t with
  | none => trivial
  | some d => exact ⟨rfl, Duration.total_of_ofTotal? h, fun _ => Value.noConfusion⟩

theorem reaches_addDuration (d : Date) (a : Duration) :
    Reaches (IsSum .date (d.instant + a.total)) (dateOr (d.addDuration a)) := by
  cases h : Date.ofInstant? (d.instant + a.total) with
  | none =>
    rw [Date.addDuration, h]
    trivial
  | some e =>
    rw [Date.addDuration, h]
    exact ⟨rfl, Date.ofInstant?_eq_some_iff.1 h, fun _ => Value.noConfusion⟩

/-- Measures are added up, where no date is shifted by months. -/
theorem add_isSum (a b : Value) {f : Family} (h : Family.sum? a.family b.family = some f)
    (hf : f.isMeasured) (hshift : Family.isShift a.family b.family = false) :
    Reaches (IsSum f (a.measure + b.measure)) (a.add b) := by
  cases a <;> cases b <;> cases h <;> first
    | exact reaches_exactly _ _
    | exact reaches_durationOr _ _
    | exact reaches_monthsOr _ _
    | exact reaches_addDuration _ _
    | exact (Int.add_comm _ _) ▸ reaches_addDuration _ _
    | exact Bool.noConfusion hf
    | exact Bool.noConfusion hshift

/-- `a op (b op c)`. -/
def groupRight (op : BinaryOp) (a b c : Value) : Except Cause Value := do
  binary op a (← binary op b c)

/-- `(a op b) op c`. -/
def groupLeft (op : BinaryOp) (a b c : Value) : Except Cause Value := do
  binary op (← binary op a b) c

theorem groupRight_of_ok {op : BinaryOp} (h : binary op b c = .ok v) :
    groupRight op a b c = binary op a v := by
  unfold groupRight
  rw [h]
  rfl

theorem groupRight_of_error {op : BinaryOp} {cause : Cause} (h : binary op b c = .error cause) :
    groupRight op a b c = .error cause := by
  unfold groupRight
  rw [h]
  rfl

theorem groupLeft_of_ok {op : BinaryOp} (h : binary op a b = .ok v) :
    groupLeft op a b c = binary op v c := by
  unfold groupLeft
  rw [h]
  rfl

theorem groupLeft_of_error {op : BinaryOp} {cause : Cause} (h : binary op a b = .error cause) :
    groupLeft op a b c = .error cause := by
  unfold groupLeft
  rw [h]
  rfl

theorem InFamily.bind {f : Option Family} {g : Family → Option Family}
    {next : Value → Except Cause Value} (hr : InFamily f r)
    (h : ∀ v, InFamily (g v.family) (next v)) : InFamily (f.bind g) (r >>= next) := by
  cases r with
  | ok v =>
    rw [hr v rfl]
    exact h v
  | error cause => exact inFamily_error _ _

theorem exists_text (h : v.family = .text) : ∃ s, v = str s := by
  cases v <;> first | exact ⟨_, rfl⟩ | cases h

theorem exists_list (h : v.family = .list) : ∃ items, v = list items := by
  cases v <;> first | exact ⟨_, rfl⟩ | cases h

theorem exists_date (h : v.family = .date) : ∃ d, v = date d := by
  cases v <;> first | exact ⟨_, rfl⟩ | cases h

theorem exists_months (h : v.family = .months) : ∃ m, v = months m := by
  cases v <;> first | exact ⟨_, rfl⟩ | cases h

theorem add_assoc_text (ha : a.family = .text) (hb : b.family = .text) (hc : c.family = .text) :
    groupRight .add a b c = groupLeft .add a b c := by
  obtain ⟨s, rfl⟩ := exists_text ha
  obtain ⟨t, rfl⟩ := exists_text hb
  obtain ⟨u, rfl⟩ := exists_text hc
  exact congrArg (fun s => Except.ok (str s)) String.append_assoc.symm

theorem add_assoc_list (ha : a.family = .list) (hb : b.family = .list) (hc : c.family = .list) :
    groupRight .add a b c = groupLeft .add a b c := by
  obtain ⟨xs, rfl⟩ := exists_list ha
  obtain ⟨ys, rfl⟩ := exists_list hb
  obtain ⟨zs, rfl⟩ := exists_list hc
  exact congrArg (fun xs => Except.ok (list xs)) (List.append_assoc xs ys zs).symm

/-- Where sums have a measure, both groupings reach the value of the same measure. -/
theorem add_grouping_measured (h : Family.sumsMeasured a.family b.family c.family = true) :
    SameOrLimit (groupRight .add a b c) (groupLeft .add a b c) := by
  simp only [Family.sumsMeasured, Option.any_eq_true, Bool.and_eq_true, decide_eq_true_eq,
    Bool.not_eq_true', Bool.or_eq_false_iff] at h
  obtain ⟨f, hbc, g, hab, e, habc, ⟨⟨⟨hf, hg⟩, he⟩, habc'⟩, ⟨⟨hs, hs'⟩, ht⟩, ht'⟩ := h
  refine Reaches.sameOrLimit (P := IsSum e (a.measure + (b.measure + c.measure))) ?_ ?_
    fun v w => IsSum.unique he
  · refine (add_isSum b c hbc hf hs).bind fun v hv => ?_
    obtain ⟨rfl, hmeasure, -⟩ := hv
    exact hmeasure ▸ add_isSum a v habc he hs'
  · refine (add_isSum a b hab hg ht).bind fun v hv => ?_
    obtain ⟨rfl, hmeasure, -⟩ := hv
    rw [← Int.add_assoc, ← hmeasure]
    exact add_isSum v c habc' he ht'

/-- A date in some month, on the day and at the time of another date. -/
def IsShifted (d : Date) (number : Int) (v : Value) : Prop :=
  ∃ e, v = date e ∧ e.monthNumber = number ∧ e.day = d.day ∧ e.microsOfDay = d.microsOfDay

variable {d : Date} {i : Int}

theorem IsShifted.unique (hv : IsShifted d i v) (hw : IsShifted d i w) : v = w := by
  obtain ⟨e, rfl, hmonth, hday, htime⟩ := hv
  obtain ⟨e', rfl, hmonth', hday', htime'⟩ := hw
  exact congrArg date (Date.eq_of_month (hmonth.trans hmonth'.symm) (hday.trans hday'.symm)
    (htime.trans htime'.symm))

/-- No month lacks the days up to the 28th. -/
theorem reaches_shiftMonths (h : d.day ≤ 28) (n : Int64) :
    Reaches (IsShifted d (d.monthNumber + n.toInt)) (shiftMonths d n) := by
  unfold shiftMonths
  rcases Months.addTo_cases ⟨n⟩ d with hshift | ⟨e, hshift, hmonth, hday, htime⟩
  · rw [hshift]
    trivial
  · rw [hshift]
    have hlength := Calendar.le_daysInMonth e.year e.month
    exact ⟨e, rfl, hmonth, by omega, htime⟩

theorem IsShifted.shift (h : d.day ≤ 28) (hv : IsShifted d i v) (m : Months) :
    Reaches (IsShifted d (i + m.count.toInt)) (v.add (months m)) ∧
      Reaches (IsShifted d (i + m.count.toInt)) ((months m).add v) := by
  obtain ⟨e, rfl, hmonth, hday, htime⟩ := hv
  have hshift := reaches_shiftMonths (d := e) (hday ▸ h) m.count
  rw [hmonth] at hshift
  unfold IsShifted at hshift ⊢
  rw [hday, htime] at hshift
  exact ⟨hshift, hshift⟩

theorem isShifted_self (d : Date) : IsShifted d d.monthNumber (date d) := ⟨d, rfl, rfl, rfl, rfl⟩

/-- The sum of two numbers of months shifts a date like one after the other. -/
theorem IsSum.shift (h : d.day ≤ 28) {t : Int} (hv : IsSum .months t v) :
    Reaches (IsShifted d (d.monthNumber + t)) ((date d).add v) ∧
      Reaches (IsShifted d (d.monthNumber + t)) (v.add (date d)) := by
  obtain ⟨hfamily, hmeasure, -⟩ := hv
  obtain ⟨m, rfl⟩ := exists_months hfamily
  exact hmeasure ▸ (isShifted_self d).shift h m

/-- Two shifts lead a day up to the 28th to the month that one shift by their sum leads to, on
whichever side of the date each of them stands. -/
theorem reaches_shift_shift (h : d.day ≤ 28) (m n : Months) {next : Value → Except Cause Value}
    (hnext : ∀ v, next v = v.add (months n) ∨ next v = (months n).add v) :
    Reaches (IsShifted d (d.monthNumber + (m.count.toInt + n.count.toInt)))
      (shiftMonths d m.count >>= next) := by
  rw [← Int.add_assoc]
  refine (reaches_shiftMonths h _).bind fun v hv => ?_
  obtain ⟨hright, hleft⟩ := hv.shift h n
  rcases hnext v with heq | heq
  · rw [heq]
    exact hright
  · rw [heq]
    exact hleft

/-- Days up to the 28th are shifted by months one after another as at once. -/
theorem add_grouping_shifted (h : Family.ShiftedTwice a.family b.family c.family)
    (hday : ∀ d, date d ∈ [a, b, c] → d.day ≤ 28) :
    SameOrLimit (groupRight .add a b c) (groupLeft .add a b c) := by
  rcases h.cases with ⟨ha, hb, hc⟩ | ⟨ha, hb, hc⟩ | ⟨ha, hb, hc⟩
  · obtain ⟨d, rfl⟩ := exists_date ha
    obtain ⟨m, rfl⟩ := exists_months hb
    obtain ⟨n, rfl⟩ := exists_months hc
    have hd := hday d (by simp)
    have hright : Reaches (IsShifted d (d.monthNumber + (m.count.toInt + n.count.toInt)))
        (groupRight .add (date d) (months m) (months n)) :=
      (reaches_monthsOr _ _).bind fun v hv => (hv.shift hd).1
    exact hright.sameOrLimit (reaches_shift_shift hd m n fun v => .inl rfl)
      fun v w => IsShifted.unique
  · obtain ⟨m, rfl⟩ := exists_months ha
    obtain ⟨d, rfl⟩ := exists_date hb
    obtain ⟨n, rfl⟩ := exists_months hc
    have hd := hday d (by simp)
    have hright : Reaches (IsShifted d (d.monthNumber + (n.count.toInt + m.count.toInt)))
        (groupRight .add (months m) (date d) (months n)) :=
      reaches_shift_shift hd n m fun v => .inr rfl
    rw [Int.add_comm n.count.toInt] at hright
    exact Reaches.sameOrLimit hright (reaches_shift_shift hd m n fun v => .inl rfl)
      fun v w => IsShifted.unique
  · obtain ⟨m, rfl⟩ := exists_months ha
    obtain ⟨n, rfl⟩ := exists_months hb
    obtain ⟨d, rfl⟩ := exists_date hc
    have hd := hday d (by simp)
    have hleft : Reaches (IsShifted d (d.monthNumber + (m.count.toInt + n.count.toInt)))
        (groupLeft .add (months m) (months n) (date d)) :=
      (reaches_monthsOr _ _).bind fun v hv => (hv.shift hd).2
    rw [Int.add_comm m.count.toInt] at hleft
    exact Reaches.sameOrLimit (reaches_shift_shift hd n m fun v => .inr rfl) hleft
      fun v w => IsShifted.unique

/-- A date is moved by months and a duration, or shifted by months twice from a day that a month on
the way may lack. -/
def ShiftsUnevenly (a b c : Value) : Prop :=
  Family.ShiftedAndMoved a.family b.family c.family ∨
    Family.ShiftedTwice a.family b.family c.family ∧ ∃ d, date d ∈ [a, b, c] ∧ 28 < d.day

/-- **The groupings of a sum give one value**, unless a limit is passed on the way or a date is
shifted by months unevenly. -/
theorem add_grouping (ha : a.family ≠ .float) (hb : b.family ≠ .float) (hc : c.family ≠ .float)
    (hshift : ¬ ShiftsUnevenly a b c) :
    SameOrLimit (groupRight .add a b c) (groupLeft .add a b c) := by
  obtain ⟨hmoved, htwice⟩ := not_or.1 hshift
  by_cases hshifted : Family.ShiftedTwice a.family b.family c.family
  · exact add_grouping_shifted hshifted fun d hd =>
      Nat.not_lt.1 fun hlt => htwice ⟨hshifted, d, hd, hlt⟩
  · rcases Family.sum_cases _ _ _ ha hb hc hshifted hmoved with ⟨hright, hleft⟩ | h | h | h
    · refine .of_none ?_ ?_
      · exact hright ▸ (inFamily_add b c).bind fun v => inFamily_add a v
      · exact hleft ▸ (inFamily_add a b).bind (g := (Family.sum? · c.family)) fun v =>
          inFamily_add v c
    · exact .of_eq (add_assoc_text h.1 h.2.1 h.2.2)
    · exact .of_eq (add_assoc_list h.1 h.2.1 h.2.2)
    · exact add_grouping_measured h

end Value

end Templating
