import Templating.Calendar.Months
import Templating.Proofs.Calendar.DayNumber

/-!
# Dates shifted by months

* `Date.monthNumber`: months counted from the year 0.
* `Date.MovesTo`: a date is moved to another month, where the day is cut to the month's length.
* `Months.addTo_eq_ok_iff`, `Months.addTo_eq_error_iff`: **a shift moves to the month whose number
  is the sum**, or fails outside the calendar.
* `Date.eq_of_month`: a date is known from its month, its day and its time.
* `month_shifts_clamp`: **when a shift succeeds, where it leads to, and how shifts compose.**
-/

namespace Templating

open Calendar

namespace Date

variable {d e f g : Date} {number later : Int}

/-- The months since January of the year 0. -/
def monthNumber (d : Date) : Int := d.year * 12 + d.month - 1

/-- The number of a month of the calendar: a year is twelve months. -/
def InYears (number : Int) : Prop := 1 ≤ number / 12 ∧ number / 12 ≤ 9999

instance (number : Int) : Decidable (InYears number) := inferInstanceAs (Decidable (_ ∧ _))

theorem inYears_monthNumber (d : Date) : InYears d.monthNumber := by
  obtain ⟨hyear, hyear', hmonth, hmonth', -⟩ := d.valid
  unfold InYears monthNumber
  omega

/-- The number of a month determines its year and its place in the year. -/
theorem year_eq_of_monthNumber (h : d.monthNumber = e.monthNumber) :
    d.year = e.year ∧ d.month = e.month := by
  obtain ⟨-, -, hd, hd', -⟩ := d.valid
  obtain ⟨-, -, he, he', -⟩ := e.valid
  unfold monthNumber at h
  omega

/-- A date is known from its month, its day and its time. -/
theorem eq_of_month (hmonth : d.monthNumber = e.monthNumber) (hday : d.day = e.day)
    (htime : d.microsOfDay = e.microsOfDay) : d = e := by
  have hyear := year_eq_of_monthNumber hmonth
  apply instant_injective
  simp only [instant, dayNumber, yearday, hyear, hday, htime]

/-- The date `d` is moved to the month with a number: `e` has the same time of day, and the same day
unless the month is shorter. -/
structure MovesTo (d : Date) (number : Int) (e : Date) : Prop where
  month : e.monthNumber = number
  day : e.day = min d.day (daysInMonth e.year e.month)
  hour : e.hour = d.hour
  minute : e.minute = d.minute
  second : e.second = d.second
  micro : e.micro = d.micro

end Date

theorem Calendar.le_daysInMonth (year : Int) (month : Nat) : 28 ≤ daysInMonth year month := by
  unfold daysInMonth
  split
  · split <;> decide
  · split <;> decide

namespace Date

variable {d e f g : Date} {number later : Int}

theorem MovesTo.microsOfDay (h : d.MovesTo number e) : e.microsOfDay = d.microsOfDay := by
  rw [Date.microsOfDay, Date.microsOfDay, h.hour, h.minute, h.second, h.micro]

/-- No month is shorter than 28 days. -/
theorem MovesTo.day_eq (h : d.MovesTo number e) (hday : d.day ≤ 28) : e.day = d.day := by
  have hlength := le_daysInMonth e.year e.month
  rw [h.day]
  omega

/-- There is one date to which another one is moved in a month. -/
theorem MovesTo.unique (he : d.MovesTo number e) (hf : d.MovesTo number f) : e = f := by
  have hmonth := he.month.trans hf.month.symm
  have hyear := year_eq_of_monthNumber hmonth
  refine eq_of_month hmonth ?_ (he.microsOfDay.trans hf.microsOfDay.symm)
  rw [he.day, hf.day, hyear.1, hyear.2]

/-- Every month of the calendar has such a date. -/
theorem exists_movesTo (d : Date) (h : InYears number) :
    ∃ e, d.MovesTo number e ∧
      Date.ofParts (number / 12) (number % 12 + 1).toNat
        (min d.day (daysInMonth (number / 12) (number % 12 + 1).toNat) : Nat)
        d.hour d.minute d.second d.micro = .ok e := by
  obtain ⟨hlow, hhigh⟩ := h
  have hyear : ((number / 12).toNat : Int) = number / 12 := by omega
  have hmonth : ((number % 12 + 1).toNat : Int) = number % 12 + 1 := by omega
  generalize (number / 12).toNat = year at hyear
  generalize (number % 12 + 1).toNat = month at hmonth
  have hlength := le_daysInMonth year month
  obtain ⟨-, -, -, -, hday, -, htime⟩ := d.valid
  have hvalid : Date.Valid year month (min d.day (daysInMonth year month)) d.hour d.minute
      d.second d.micro :=
    ⟨by omega, by omega, by omega, by omega, by omega, by omega, htime⟩
  refine ⟨⟨_, _, _, _, _, _, _, hvalid⟩, ⟨?_, rfl, rfl, rfl, rfl, rfl⟩, ?_⟩
  · simp only [monthNumber]
    omega
  · rw [← hyear]
    exact Date.ofParts_self ⟨_, _, _, _, _, _, _, hvalid⟩

/-- A detour through another month can only shorten the day, and a day that every month has is
kept. -/
theorem MovesTo.trans (he : d.MovesTo number e) (hf : e.MovesTo later f)
    (hg : d.MovesTo later g) : f.day ≤ g.day ∧ (d.day ≤ 28 → f = g) := by
  have hmonth := hf.month.trans hg.month.symm
  have hyear := year_eq_of_monthNumber hmonth
  have hshorter := he.day
  refine ⟨?_, fun hday => ?_⟩
  · rw [hf.day, hg.day, hyear.1, hyear.2]
    omega
  · have hkept := he.day_eq hday
    refine eq_of_month hmonth ?_
      (hf.microsOfDay.trans (he.microsOfDay.trans hg.microsOfDay.symm))
    rw [hf.day_eq (by omega), hg.day_eq hday, hkept]

/-- A day that every month has survives the way to another month and back. -/
theorem MovesTo.symm (he : d.MovesTo number e) (hday : d.day ≤ 28) :
    e.MovesTo d.monthNumber d where
  month := rfl
  day := by
    have hlength := le_daysInMonth d.year d.month
    rw [he.day_eq hday]
    omega
  hour := he.hour.symm
  minute := he.minute.symm
  second := he.second.symm
  micro := he.micro.symm

end Date

namespace Months

open Date

variable {d e : Date} {m n s : Months} {number : Int}

/-- Months of the calendar have numbers that are far from the limits of a word. -/
theorem fits_of_inYears (h : InYears number) : Number.Fits number := by
  unfold InYears at h
  unfold Number.Fits
  omega

/-- A shift, in terms of the number of the month that it leads to. -/
theorem addTo_eq (h : d.monthNumber + m.count.toInt = number) :
    m.addTo d =
      if InYears number then
        Date.ofParts (number / 12) (number % 12 + 1).toNat
          (min d.day (daysInMonth (number / 12) (number % 12 + 1).toNat) : Nat)
          d.hour d.minute d.second d.micro
      else .error .outOfRange := by
  subst h
  have hguard : (¬ Number.Fits (d.monthNumber + m.count.toInt) ∨
      (d.monthNumber + m.count.toInt) / 12 < 1 ∨ 9999 < (d.monthNumber + m.count.toInt) / 12) ↔
      ¬ InYears (d.monthNumber + m.count.toInt) := by
    -- a number that does not fit a word is far outside the calendar anyway
    have hfits : InYears (d.monthNumber + m.count.toInt) → Number.Fits _ := fits_of_inYears
    unfold InYears at *
    constructor
    · rintro (h | h | h) hyears
      · exact h (hfits hyears)
      · omega
      · omega
    · intro h
      omega
  simp only [addTo, backTo_eq_min]
  by_cases hyears : InYears (d.monthNumber + m.count.toInt)
  · rw [if_pos hyears]
    exact if_neg (mt hguard.1 (not_not_intro hyears))
  · rw [if_neg hyears]
    exact if_pos (hguard.2 hyears)

/-- **A shift that succeeds moves to the month whose number is the sum.** -/
theorem addTo_eq_ok_iff :
    m.addTo d = .ok e ↔ d.MovesTo (d.monthNumber + m.count.toInt) e := by
  rw [addTo_eq rfl]
  constructor
  · intro h
    split at h
    · rename_i hyears
      obtain ⟨f, hf, hparts⟩ := d.exists_movesTo hyears
      rw [hparts] at h
      cases h
      exact hf
    · cases h
  · intro h
    have hyears := h.month ▸ e.inYears_monthNumber
    obtain ⟨f, hf, hparts⟩ := d.exists_movesTo hyears
    rw [if_pos hyears, hparts, hf.unique h]

/-- **A shift fails exactly outside the calendar**, and says so. -/
theorem addTo_eq_error_iff {error : Calendar.Error} :
    m.addTo d = .error error ↔
      error = .outOfRange ∧ ¬ InYears (d.monthNumber + m.count.toInt) := by
  rw [addTo_eq rfl]
  split
  · rename_i hyears
    obtain ⟨f, -, hparts⟩ := d.exists_movesTo hyears
    rw [hparts]
    simp [hyears]
  · rename_i hyears
    simp [hyears, eq_comm]

theorem exists_addTo_iff :
    (∃ e, m.addTo d = .ok e) ↔ InYears (d.monthNumber + m.count.toInt) := by
  constructor
  · rintro ⟨e, h⟩
    exact (addTo_eq_ok_iff.1 h).month ▸ e.inYears_monthNumber
  · intro hyears
    obtain ⟨e, he, -⟩ := d.exists_movesTo hyears
    exact ⟨e, addTo_eq_ok_iff.2 he⟩

/-- A shift by months fails outside the calendar; else it adds up the numbers of months and keeps
the time, and the day unless the month is shorter. -/
theorem addTo_cases (m : Months) (d : Date) :
    m.addTo d = .error .outOfRange ∨ ∃ e, m.addTo d = .ok e ∧
      e.monthNumber = d.monthNumber + m.count.toInt ∧
      e.day = min d.day (daysInMonth e.year e.month) ∧ e.microsOfDay = d.microsOfDay := by
  cases h : m.addTo d with
  | error error => exact .inl (congrArg _ (addTo_eq_error_iff.1 h).1)
  | ok e =>
    have hmoves := addTo_eq_ok_iff.1 h
    exact .inr ⟨e, rfl, hmoves.month, hmoves.day, hmoves.microsOfDay⟩

/-- Shifts one after another lead to the month of the shift by their sum. -/
theorem addTo_addTo {e₁ e₂ : Date} (h₁ : m.addTo d = .ok e₁) (h₂ : n.addTo e₁ = .ok e₂)
    (hsum : s.count.toInt = m.count.toInt + n.count.toInt) (h : s.addTo d = .ok e) :
    e₂.monthNumber = e.monthNumber ∧ e₂.day ≤ e.day ∧ (d.day ≤ 28 → e₂ = e) := by
  have hmoves₁ := addTo_eq_ok_iff.1 h₁
  have hmoves₂ := addTo_eq_ok_iff.1 h₂
  have hmoves := addTo_eq_ok_iff.1 h
  rw [hmoves₁.month, add_assoc, ← hsum] at hmoves₂
  exact ⟨hmoves₂.month.trans hmoves.month.symm, hmoves₁.trans hmoves₂ hmoves⟩

/-- Two shifts that succeed have a sum, and the shift by it succeeds, too. -/
theorem exists_addTo_add {e₁ e₂ : Date} (h₁ : m.addTo d = .ok e₁) (h₂ : n.addTo e₁ = .ok e₂) :
    ∃ s e, Number.ofInt? (m.count.toInt + n.count.toInt) = some s ∧ (mk s).addTo d = .ok e := by
  have hmonth₁ := (addTo_eq_ok_iff.1 h₁).month
  have hmonth₂ := (addTo_eq_ok_iff.1 h₂).month
  have hyears := e₂.inYears_monthNumber
  have hstart := d.inYears_monthNumber
  rw [hmonth₂, hmonth₁, add_assoc] at hyears
  obtain ⟨s, hs, hsum⟩ : ∃ s, Number.ofInt? (m.count.toInt + n.count.toInt) = some s ∧
      s.toInt = m.count.toInt + n.count.toInt := by
    apply Number.ofInt?_of_fits
    unfold InYears at hyears hstart
    unfold Number.Fits
    omega
  obtain ⟨e, he⟩ := (exists_addTo_iff (m := ⟨s⟩)).2 (hsum ▸ hyears)
  exact ⟨s, e, hs, he⟩

/-- A shift can be taken back where every month has the day. -/
theorem exists_addTo_neg (h : m.addTo d = .ok e) (hday : d.day ≤ 28) :
    ∃ back, Number.ofInt? (-m.count.toInt) = some back ∧ (mk back).addTo e = .ok d := by
  have hmoves := addTo_eq_ok_iff.1 h
  have hyears := e.inYears_monthNumber
  have hstart := d.inYears_monthNumber
  rw [hmoves.month] at hyears
  obtain ⟨back, hback, hneg⟩ : ∃ back, Number.ofInt? (-m.count.toInt) = some back ∧
      back.toInt = -m.count.toInt := by
    apply Number.ofInt?_of_fits
    unfold InYears at hyears hstart
    unfold Number.Fits
    omega
  refine ⟨back, hback, addTo_eq_ok_iff.2 ?_⟩
  rw [hmoves.month, hneg, add_neg_cancel_right]
  exact hmoves.symm hday

end Months

end Templating
