import Templating.Proofs.Calendar.Compact

/-!
# Days and instants are counted without a gap

* `daysBeforeYear_succ`, `daysBeforeMonth_succ`: a year is followed by the next one after 365 or 366
  days, and a month by the next one after its days.
* `yearOfDay_spec`, `monthOfDay_spec`: the year and the month in which a day falls.
* `Date.instant_injective`: two dates have different instants.
* `Date.ofInstant?_eq_some_iff`: **the date of an instant is the one that has it**.
* `Date.exists_ofInstant?`: every instant from the first to the last one of the calendar has a date.
-/

namespace Templating

open Calendar

namespace Calendar

/-! ## Years -/

/-- The days of a year. -/
def daysInYear (year : Nat) : Nat := if isLeapYear year then 366 else 365

theorem isLeapYear_iff {year : Nat} (h : year ≤ 9999) :
    isLeapYear year = true ↔ year % 4 = 0 ∧ (year % 100 ≠ 0 ∨ year % 400 = 0) := by
  have hfirst : firstYear ≤ (year : Int) := by simp only [firstYear]; omega
  have hlast : (year : Int) ≤ lastYear := by simp only [lastYear]; omega
  simp only [isLeapYear, hfirst, hlast, Bool.and_eq_true, Bool.or_eq_true, decide_eq_true_eq,
    true_and, ne_eq]
  norm_cast

/-- Another multiple is reached with `n + 1` exactly if `n + 1` is one. -/
theorem succ_div_eq (n k : Nat) : (n + 1) / k = n / k + if (n + 1) % k = 0 then 1 else 0 := by
  rw [Nat.succ_div]
  simp only [Nat.dvd_iff_mod_eq_zero]

theorem daysBeforeYear_succ {year : Nat} (h : 1 ≤ year) (h' : year ≤ 9999) :
    daysBeforeYear (year + 1) = daysBeforeYear year + daysInYear year := by
  obtain ⟨n, rfl⟩ : ∃ n, year = n + 1 := ⟨year - 1, by omega⟩
  have hmore : n / 100 ≤ n / 4 := Nat.div_le_div_left (by decide) (by decide)
  simp only [daysBeforeYear, daysInYear, isLeapYear_iff h', Nat.add_sub_cancel, succ_div_eq n]
  by_cases h4 : (n + 1) % 4 = 0
  · by_cases h100 : (n + 1) % 100 = 0
    · by_cases h400 : (n + 1) % 400 = 0
      · simp [h4, h100, h400]
        omega
      · simp [h4, h100, h400]
        omega
    · have h400 : (n + 1) % 400 ≠ 0 := by omega
      simp [h4, h100, h400]
      omega
  · have h100 : (n + 1) % 100 ≠ 0 := by omega
    have h400 : (n + 1) % 400 ≠ 0 := by omega
    simp [h4, h100, h400]
    omega

/-- A year has at least 365 days, also outside the calendar. -/
theorem daysBeforeYear_add_le {year : Nat} (h : 1 ≤ year) :
    daysBeforeYear year + 365 ≤ daysBeforeYear (year + 1) := by
  obtain ⟨n, rfl⟩ : ∃ n, year = n + 1 := ⟨year - 1, by omega⟩
  have hmore : n / 100 ≤ n / 4 := Nat.div_le_div_left (by decide) (by decide)
  have h4 := succ_div_eq n 4
  have h100 := succ_div_eq n 100
  have h400 := succ_div_eq n 400
  simp only [daysBeforeYear, Nat.add_sub_cancel]
  split at h4 <;> split at h100 <;> split at h400 <;> omega

theorem daysBeforeYear_lt {year later : Nat} (h : 1 ≤ year) (hlt : year < later) :
    daysBeforeYear year < daysBeforeYear later := by
  induction later, hlt using Nat.le_induction with
  | base => exact Nat.lt_of_lt_of_le (by omega) (daysBeforeYear_add_le h)
  | succ later hle ih =>
    have hstep := daysBeforeYear_add_le (show 1 ≤ later by omega)
    omega

/-- The days before a year are close to the years times their mean length. -/
theorem daysBeforeYear_mean (n : Nat) :
    400 * daysBeforeYear (n + 1) < 146097 * n + 400 ∧
      146097 * n < 400 * daysBeforeYear (n + 1) + 800 := by
  have hmore : n / 100 ≤ n / 4 := Nat.div_le_div_left (by decide) (by decide)
  simp only [daysBeforeYear, Nat.add_sub_cancel]
  omega

/-- The year of a day has begun by that day, and the next one has not. -/
theorem yearOfDay_spec (n : Nat) :
    1 ≤ yearOfDay n ∧ daysBeforeYear (yearOfDay n) ≤ n ∧ n < daysBeforeYear (yearOfDay n + 1) := by
  have hmean := daysBeforeYear_mean (n * 400 / 146097)
  have hmean' := daysBeforeYear_mean (n * 400 / 146097 + 1)
  have hnext := daysBeforeYear_add_le (show 1 ≤ n * 400 / 146097 + 1 + 1 by omega)
  have hdiv : n * 400 / 146097 * 146097 ≤ n * 400 ∧
      n * 400 < n * 400 / 146097 * 146097 + 146097 := by omega
  unfold yearOfDay
  simp only
  generalize n * 400 / 146097 = k at *
  rw [if_neg (by omega)]
  split <;> omega

theorem yearOfDay_le_iff {n : Nat} : yearOfDay n ≤ 9999 ↔ n < daysBeforeYear 10000 := by
  obtain ⟨hpos, hle, hlt⟩ := yearOfDay_spec n
  constructor
  · intro h
    rcases Nat.eq_or_lt_of_le h with h | h
    · rw [h] at hlt
      exact hlt
    · exact Nat.lt_trans hlt (daysBeforeYear_lt (by omega) (by omega))
  · intro h
    by_contra hyear
    rcases Nat.eq_or_lt_of_le (show 10000 ≤ yearOfDay n by omega) with heq | hgt
    · rw [← heq] at hle
      omega
    · have := daysBeforeYear_lt (by omega) hgt
      omega

/-! ## Months -/

theorem daysBeforeMonth_succ (year : Nat) {month : Nat} (h : 1 ≤ month) :
    daysBeforeMonth year (month + 1) = daysBeforeMonth year month + daysInMonth year month := by
  have hfold (start : Nat) (months : List Nat) :
      months.foldr (fun m n => daysInMonth year (m + 1) + n) start =
        months.foldr (fun m n => daysInMonth year (m + 1) + n) 0 + start := by
    induction months with
    | nil => simp
    | cons month months ih => simp only [List.foldr_cons, ih]; omega
  obtain ⟨n, rfl⟩ : ∃ n, month = n + 1 := ⟨month - 1, by omega⟩
  simp only [daysBeforeMonth, Nat.add_sub_cancel, List.range_succ, List.foldr_append,
    List.foldr_cons, List.foldr_nil, Nat.add_zero]
  exact hfold _ _

theorem daysBeforeMonth_thirteen (year : Nat) : daysBeforeMonth year 13 = daysInYear year := by
  unfold daysInYear daysBeforeMonth
  cases h : isLeapYear year <;> simp [List.range_succ, daysInMonth, h]

theorem daysBeforeMonth_le (year : Nat) {month later : Nat} (h : 1 ≤ month) (hle : month ≤ later) :
    daysBeforeMonth year month ≤ daysBeforeMonth year later := by
  induction later, hle using Nat.le_induction with
  | base => exact Nat.le_refl _
  | succ later hle ih =>
    rw [daysBeforeMonth_succ year (by omega)]
    omega

/-- The search for the month of a day ends in the month that has begun by that day and that the next
one follows later. The induction is on the months that are left. -/
theorem monthOfDay_spec (year : Nat) {left month n : Nat} (h : 1 ≤ month)
    (hn : daysBeforeMonth year month + n < daysBeforeMonth year (month + left + 1)) :
    month ≤ (monthOfDay year left month n).1 ∧
      (monthOfDay year left month n).1 ≤ month + left ∧
      1 ≤ (monthOfDay year left month n).2 ∧
      (monthOfDay year left month n).2 ≤ daysInMonth year (monthOfDay year left month n).1 ∧
      daysBeforeMonth year (monthOfDay year left month n).1 + (monthOfDay year left month n).2 =
        daysBeforeMonth year month + n + 1 := by
  induction left generalizing month n with
  | zero =>
    rw [Nat.add_zero, daysBeforeMonth_succ year h] at hn
    simp only [monthOfDay]
    omega
  | succ left ih =>
    simp only [monthOfDay]
    have hnext := daysBeforeMonth_succ year h
    split
    · dsimp only
      omega
    · rw [show month + (left + 1) + 1 = month + 1 + left + 1 by omega] at hn
      obtain ⟨hfrom, hto, hday, hlength, hsum⟩ := ih (show 1 ≤ month + 1 by omega)
        (n := n - daysInMonth year month) (by omega)
      refine ⟨by omega, by omega, hday, hlength, by omega⟩

end Calendar

/-! ## Dates -/

namespace Date

/-- The day after the last day of the calendar. -/
def dayLimit : Nat := 3652059

theorem daysBeforeYear_limit : daysBeforeYear 10000 = dayLimit := by decide

/-- The last instant of the calendar. -/
def last : Date := ⟨9999, 12, 31, 23, 59, 59, 999999, by decide⟩

variable (a b d : Date)

theorem succ_dayNumber :
    d.dayNumber + 1 = daysBeforeYear d.year + daysBeforeMonth d.year d.month + d.day := by
  obtain ⟨-, -, -, -, hday, -⟩ := d.valid
  simp only [dayNumber, yearday]
  omega

theorem yearday_le : daysBeforeMonth d.year d.month + d.day ≤ daysInYear d.year := by
  obtain ⟨-, -, hmonth, hmonth', -, hday, -⟩ := d.valid
  calc daysBeforeMonth d.year d.month + d.day
      ≤ daysBeforeMonth d.year (d.month + 1) := by
        rw [daysBeforeMonth_succ d.year hmonth]
        omega
    _ ≤ daysBeforeMonth d.year 13 := daysBeforeMonth_le d.year (by omega) (by omega)
    _ = daysInYear d.year := daysBeforeMonth_thirteen d.year

/-- A date lies in its year. -/
theorem dayNumber_lt : d.dayNumber < daysBeforeYear (d.year + 1) := by
  obtain ⟨hyear, hyear', -⟩ := d.valid
  have hsucc := daysBeforeYear_succ hyear hyear'
  have hnumber := d.succ_dayNumber
  have hday := d.yearday_le
  omega

theorem dayNumber_lt_limit : d.dayNumber < dayLimit := by
  obtain ⟨hyear, hyear', -⟩ := d.valid
  have hlt := d.dayNumber_lt
  rw [← daysBeforeYear_limit]
  rcases Nat.eq_or_lt_of_le hyear' with h | h
  · rwa [h] at hlt
  · exact Nat.lt_trans hlt (daysBeforeYear_lt (by omega) (by omega))

theorem microsOfDay_lt : d.microsOfDay < microsPerDay := by
  obtain ⟨-, -, -, -, -, -, hhour, hminute, hsecond, hmicro⟩ := d.valid
  simp only [microsOfDay, microsPerSecond, microsPerDay] at *
  omega

variable {a b d}

/-- Days are numbered in the order of years, months and days. -/
theorem dayNumber_lt_of_year (h : a.year < b.year) : a.dayNumber < b.dayNumber := by
  obtain ⟨hyear, -⟩ := a.valid
  obtain ⟨-, -, hmonth, -, hday, -⟩ := b.valid
  have ha := a.dayNumber_lt
  have hb := b.succ_dayNumber
  have hle : daysBeforeYear (a.year + 1) ≤ daysBeforeYear b.year := by
    rcases Nat.eq_or_lt_of_le (show a.year + 1 ≤ b.year by omega) with h | h
    · rw [h]
    · exact Nat.le_of_lt (daysBeforeYear_lt (by omega) h)
  omega

theorem dayNumber_lt_of_month (hyear : a.year = b.year) (h : a.month < b.month) :
    a.dayNumber < b.dayNumber := by
  obtain ⟨-, -, hmonth, -, -, hday, -⟩ := a.valid
  obtain ⟨-, -, -, -, hday', -⟩ := b.valid
  have ha := a.succ_dayNumber
  have hb := b.succ_dayNumber
  have hsucc := daysBeforeMonth_succ a.year hmonth
  have hle := daysBeforeMonth_le a.year (show 1 ≤ a.month + 1 by omega) (show _ ≤ b.month from h)
  rw [← hyear] at hb
  omega

/-- Two dates of one day agree in year, month and day. -/
theorem eq_of_dayNumber_eq (h : a.dayNumber = b.dayNumber) :
    a.year = b.year ∧ a.month = b.month ∧ a.day = b.day := by
  have hyear : a.year = b.year := by
    rcases Nat.lt_trichotomy a.year b.year with hlt | heq | hgt
    · exact absurd h (Nat.ne_of_lt (dayNumber_lt_of_year hlt))
    · exact heq
    · exact absurd h.symm (Nat.ne_of_lt (dayNumber_lt_of_year hgt))
  have hmonth : a.month = b.month := by
    rcases Nat.lt_trichotomy a.month b.month with hlt | heq | hgt
    · exact absurd h (Nat.ne_of_lt (dayNumber_lt_of_month hyear hlt))
    · exact heq
    · exact absurd h.symm (Nat.ne_of_lt (dayNumber_lt_of_month hyear.symm hgt))
  have ha := a.succ_dayNumber
  have hb := b.succ_dayNumber
  rw [hyear, hmonth] at ha
  exact ⟨hyear, hmonth, by omega⟩

/-- **Two dates have different instants.** -/
theorem instant_injective : Function.Injective instant := by
  intro a b h
  have hamicros := a.microsOfDay_lt
  have hbmicros := b.microsOfDay_lt
  have hday : a.dayNumber = b.dayNumber := by
    simp only [instant, microsPerDay] at *
    omega
  have hmicros : a.microsOfDay = b.microsOfDay := by
    simp only [instant, hday] at h
    omega
  obtain ⟨hyear, hmonth, hday⟩ := eq_of_dayNumber_eq hday
  have htime : a.hour = b.hour ∧ a.minute = b.minute ∧ a.second = b.second ∧
      a.micro = b.micro := by
    obtain ⟨-, -, -, -, -, -, hh, hm, hs, hu⟩ := a.valid
    obtain ⟨-, -, -, -, -, -, hh', hm', hs', hu'⟩ := b.valid
    simp only [microsOfDay, microsPerSecond] at *
    omega
  cases a
  cases b
  simp_all

theorem instant_nonneg : 0 ≤ d.instant := by
  simp only [instant, microsPerDay]
  omega

theorem instant_le_last : d.instant ≤ last.instant := by
  have hday := d.dayNumber_lt_limit
  have hmicros := d.microsOfDay_lt
  have hlast : last.instant = 315537897599999999 := by decide
  rw [hlast]
  simp only [instant, dayLimit, microsPerDay] at *
  omega

/-- Year, month and day are found again from the number of the day. -/
theorem valid_of_day {n year month day : Nat} (h : n < dayLimit) (hyear : yearOfDay n = year)
    (hmonth : monthOfDay year 11 1 (n - daysBeforeYear year) = (month, day)) :
    1 ≤ year ∧ year ≤ 9999 ∧ 1 ≤ month ∧ month ≤ 12 ∧ 1 ≤ day ∧ day ≤ daysInMonth year month ∧
      daysBeforeYear year + daysBeforeMonth year month + day = n + 1 := by
  obtain ⟨hpos, hle, hlt⟩ := yearOfDay_spec n
  have hlimit : yearOfDay n ≤ 9999 := yearOfDay_le_iff.2 (daysBeforeYear_limit ▸ h)
  rw [hyear] at hpos hle hlt hlimit
  have hlength := daysBeforeYear_succ hpos hlimit
  have hfirst : daysBeforeMonth year 1 = 0 := rfl
  have hlast := daysBeforeMonth_thirteen year
  have hspec := @monthOfDay_spec year 11 1 (n - daysBeforeYear year) (by decide)
    (by rw [hfirst, hlast]; omega)
  rw [hmonth] at hspec
  dsimp only at hspec
  obtain ⟨hfrom, hto, hday, hmonth, hsum⟩ := hspec
  exact ⟨hpos, hlimit, hfrom, hto, hday, hmonth, by omega⟩

/-- Every instant from the first to the last one has a date. -/
theorem exists_ofInstant? {t : Int} (h : 0 ≤ t) (h' : t ≤ last.instant) :
    ∃ d, ofInstant? t = some d ∧ d.instant = t := by
  obtain ⟨n, rfl⟩ := Int.eq_ofNat_of_zero_le h
  have hlast : last.instant = 315537897599999999 := by decide
  rw [hlast] at h'
  have hday : n / microsPerDay < dayLimit := by
    simp only [microsPerDay, dayLimit]
    omega
  rcases hsearch : monthOfDay (yearOfDay (n / microsPerDay)) 11 1
    (n / microsPerDay - daysBeforeYear (yearOfDay (n / microsPerDay))) with ⟨month, day⟩
  obtain ⟨hyear, hyear', hmonth, hmonth', hday, hday', hsum⟩ := valid_of_day hday rfl hsearch
  rw [ofInstant?, if_neg (by omega)]
  simp only [Int.toNat_natCast, hsearch]
  rw [dif_pos ⟨hyear, hyear', hmonth, hmonth', hday, hday', by
    simp only [microsPerSecond, microsPerDay]; omega, by omega, by omega, by
    simp only [microsPerSecond]; omega⟩]
  refine ⟨_, rfl, ?_⟩
  simp only [instant, dayNumber, yearday, microsOfDay, microsPerSecond, microsPerDay] at hsum ⊢
  omega

/-- No other instant has a date. -/
theorem ofInstant?_eq_none {t : Int} (h : t < 0 ∨ last.instant < t) : ofInstant? t = none := by
  rcases h with h | h
  · rw [ofInstant?, if_pos h]
  · have hlast : last.instant = 315537897599999999 := by decide
    rw [hlast] at h
    have hday : dayLimit ≤ t.toNat / microsPerDay := by
      simp only [microsPerDay, dayLimit]
      omega
    rw [ofInstant?, if_neg (by omega)]
    exact dif_neg fun hvalid => absurd (yearOfDay_le_iff.1 hvalid.2.1)
      (Nat.not_lt.2 (daysBeforeYear_limit ▸ hday))

/-- **The date of an instant is the one that has it.** -/
theorem ofInstant?_eq_some_iff {t : Int} : ofInstant? t = some d ↔ d.instant = t := by
  constructor
  · intro h
    by_cases hrange : 0 ≤ t ∧ t ≤ last.instant
    · obtain ⟨e, he, heq⟩ := exists_ofInstant? hrange.1 hrange.2
      rw [he] at h
      exact Option.some.inj h ▸ heq
    · rw [ofInstant?_eq_none (by omega)] at h
      cases h
  · rintro rfl
    obtain ⟨e, he, heq⟩ := exists_ofInstant? d.instant_nonneg d.instant_le_last
    rw [he, instant_injective heq]

end Date

end Templating
