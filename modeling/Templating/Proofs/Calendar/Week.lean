import Mathlib.Data.Nat.Count
import Mathlib.Data.Set.Card
import Templating.Eval.Run
import Templating.Proofs.Builtin.Argument
import Templating.Proofs.Calendar.DayNumber
import Templating.Proofs.Value.Slice

/-!
# Week numbers count weekdays

The week number of a date comes from its weekday and its day of the year by a formula.

* `Date.weekdaysUpTo`: the days from January 1 up to a date that fall on a weekday.
* `weeksBegun_succ`, `count_eq_weeksBegun`: the formula goes up by one on such a day, and so it
  counts them.
* `Date.encard_weekdaysUpTo`: **the week number is the number of those days.**
* `WholeDirectives`, `formatDate_append`: a format is expanded in parts, where each `%` stands in
  front of a letter.
* `week_counts_weekdays`: so do the method `week` and the directives `%W` and `%U`.
-/

namespace Templating

open Calendar Eval

namespace Calendar

/-! ## The formula -/

/-- The weeks that have begun in a year by the end of some of its days, when they begin on a
weekday, from the weekday of January 1. -/
def weeksBegun (first newYear : ℤ) (days : ℕ) : ℤ := (days + 6 - (first - newYear) % 7) / 7

/-- A week begins exactly on that weekday. -/
theorem weeksBegun_succ {first newYear : ℤ} (hfirst : 0 ≤ first ∧ first < 7) (days : ℕ) :
    weeksBegun first newYear (days + 1) =
      weeksBegun first newYear days + if (newYear + days) % 7 = first then 1 else 0 := by
  unfold weeksBegun
  push_cast
  split <;> omega

theorem count_eq_weeksBegun {first : ℤ} (newYear : ℤ) (hfirst : 0 ≤ first ∧ first < 7) (days : ℕ) :
    (Nat.count (fun day : ℕ => (newYear + day) % 7 = first) days : ℤ) =
      weeksBegun first newYear days := by
  induction days with
  | zero =>
    unfold weeksBegun
    simp only [Nat.count_zero]
    omega
  | succ days ih =>
    rw [weeksBegun_succ hfirst, Nat.count_succ, ← ih]
    push_cast
    rfl

end Calendar

namespace Date

variable {d e : Date}

/-- The day number of January 1. -/
def newYear (d : Date) : ℕ := daysBeforeYear d.year

/-- The days of the year of a date, from January 1 up to that date, that fall on a weekday, 0 being
Monday. The weekday is taken modulo 7, and a day is a date at midnight. -/
def weekdaysUpTo (d : Date) (weekday : ℤ) : Set Date :=
  {e | e.hasTime = false ∧ e.year = d.year ∧
    (e.month < d.month ∨ e.month = d.month ∧ e.day ≤ d.day) ∧ (e.weekday : ℤ) = weekday % 7}

theorem dayNumber_eq (d : Date) : d.dayNumber + 1 = d.newYear + d.yearday := by
  rw [succ_dayNumber, newYear, yearday, Nat.add_assoc]

theorem week_eq (d : Date) (first : ℤ) :
    (d.week first : ℤ) = weeksBegun (first % 7) d.newYear d.yearday := by
  have hnumber := d.dayNumber_eq
  unfold week weeksBegun weekday
  simp only
  omega

/-- The week number counts days of the year by their numbers. -/
theorem week_eq_count (d : Date) (first : ℤ) : d.week first =
    Nat.count (fun day : ℕ => ((d.newYear : ℤ) + day) % 7 = first % 7) d.yearday := by
  have hfirst : 0 ≤ first % 7 ∧ first % 7 < 7 := by omega
  have hcount := count_eq_weeksBegun d.newYear hfirst d.yearday
  rw [← week_eq] at hcount
  exact_mod_cast hcount.symm

/-- In a year, the order of months and days is the order of their numbers. -/
theorem dayNumber_le_iff (hyear : e.year = d.year) :
    e.dayNumber ≤ d.dayNumber ↔ e.month < d.month ∨ e.month = d.month ∧ e.day ≤ d.day := by
  rcases Nat.lt_trichotomy e.month d.month with hlt | heq | hgt
  · have hless := dayNumber_lt_of_month hyear hlt
    omega
  · have hd := d.succ_dayNumber
    have he := e.succ_dayNumber
    rw [hyear, heq] at he
    omega
  · have hmore := dayNumber_lt_of_month hyear.symm hgt
    omega

theorem newYear_le (hyear : e.year = d.year) : d.newYear ≤ e.dayNumber := by
  obtain ⟨-, -, -, -, hday, -⟩ := e.valid
  have hnumber := e.succ_dayNumber
  rw [newYear, ← hyear]
  omega

/-- Two dates of one day at midnight are the same. -/
theorem eq_of_dayNumber_of_midnight (hd : d.hasTime = false) (he : e.hasTime = false)
    (h : d.dayNumber = e.dayNumber) : d = e := by
  obtain ⟨hyear, hmonth, hday⟩ := eq_of_dayNumber_eq h
  simp only [hasTime, Bool.or_eq_false_iff, decide_eq_false_iff_not, ne_eq, not_not] at hd he
  cases d
  cases e
  simp_all

/-- A date whose day number is between January 1 of a year and a date of it lies in that year. -/
theorem year_eq_of_dayNumber (hlow : d.newYear ≤ e.dayNumber) (hhigh : e.dayNumber ≤ d.dayNumber) :
    e.year = d.year := by
  rcases Nat.lt_trichotomy e.year d.year with hlt | heq | hgt
  · have hnumber := e.dayNumber_lt
    have hle : daysBeforeYear (e.year + 1) ≤ d.newYear := by
      rcases Nat.eq_or_lt_of_le (show e.year + 1 ≤ d.year from hlt) with h | h
      · rw [h]
        exact Nat.le_refl _
      · exact Nat.le_of_lt (daysBeforeYear_lt (by omega) h)
    omega
  · exact heq
  · have hmore := dayNumber_lt_of_year hgt
    omega

/-- Every day up to a date is a date at midnight. -/
theorem exists_midnight {n : ℕ} (h : n ≤ d.dayNumber) :
    ∃ e : Date, e.hasTime = false ∧ e.dayNumber = n := by
  have hlast := d.dayNumber_lt_limit
  have hinstant : last.instant = 315537897599999999 := by decide
  obtain ⟨e, -, he⟩ := exists_ofInstant? (t := (n * microsPerDay : ℕ)) (Int.natCast_nonneg _) (by
    rw [hinstant]
    simp only [dayLimit, microsPerDay] at *
    omega)
  have hmicros := e.microsOfDay_lt
  have hsum : e.dayNumber * microsPerDay + e.microsOfDay = n * microsPerDay := by
    unfold instant at he
    exact_mod_cast he
  simp only [microsPerDay] at hsum hmicros
  refine ⟨e, ?_, by omega⟩
  have hzero : e.microsOfDay = 0 := by omega
  simp only [microsOfDay, microsPerSecond] at hzero
  simp only [hasTime, Bool.or_eq_false_iff, decide_eq_false_iff_not, ne_eq, not_not]
  omega

/-- The days are told apart by how many days of the year come before them. -/
theorem injOn_weekdaysUpTo (d : Date) (first : ℤ) :
    Set.InjOn (fun e : Date => e.dayNumber - d.newYear) (d.weekdaysUpTo first) := by
  rintro e ⟨he, heyear, -⟩ f ⟨hf, hfyear, -⟩ heq
  have hele := newYear_le heyear
  have hfle := newYear_le hfyear
  have hnumber : e.dayNumber = f.dayNumber := by
    dsimp only at heq
    omega
  exact eq_of_dayNumber_of_midnight he hf hnumber

/-- These numbers are the ones that are counted. -/
theorem image_weekdaysUpTo (d : Date) (first : ℤ) :
    (fun e : Date => e.dayNumber - d.newYear) '' d.weekdaysUpTo first =
      ↑((Finset.range d.yearday).filter fun day : ℕ =>
        ((d.newYear : ℤ) + day) % 7 = first % 7) := by
  have hnumber := d.dayNumber_eq
  ext day
  rw [Finset.mem_coe, Finset.mem_filter, Finset.mem_range]
  constructor
  · rintro ⟨e, ⟨-, hyear, horder, hweekday⟩, rfl⟩
    have hle := newYear_le hyear
    have hupTo := (dayNumber_le_iff hyear).2 horder
    rw [weekday] at hweekday
    dsimp only
    omega
  · rintro ⟨hday, hweekday⟩
    have hupTo : d.newYear + day ≤ d.dayNumber := by omega
    -- a day number in the year is that of a date at midnight, which then lies in the year
    obtain ⟨e, he, hemidnight⟩ := exists_midnight hupTo
    have hyear : e.year = d.year := year_eq_of_dayNumber (by omega) (by omega)
    have horder := (dayNumber_le_iff hyear).1 (by omega)
    refine ⟨e, ⟨he, hyear, horder, ?_⟩, ?_⟩
    · rw [weekday]
      omega
    · dsimp only
      omega

/-- **The week number is the number of days** from January 1 up to the date that fall on the first
weekday. -/
theorem encard_weekdaysUpTo (d : Date) (first : ℤ) :
    (d.weekdaysUpTo first).encard = d.week first := by
  have hcounted := (d.injOn_weekdaysUpTo first).encard_image
  rw [← hcounted, image_weekdaysUpTo, Set.encard_coe_eq_coe_finsetCard, week_eq_count,
    Nat.count_eq_card_filter_range]

/-! ### Laws of the number -/

theorem week_congr {first other : ℤ} (h : other % 7 = first % 7) : d.week other = d.week first := by
  rw [week_eq_count, week_eq_count, h]

/-- There are at most 53 weeks in a year. -/
theorem week_le (d : Date) (first : ℤ) : d.week first ≤ 53 := by
  have hweek := d.week_eq first
  have hyearday : d.yearday ≤ daysInYear d.year := d.yearday_le
  have hlength : daysInYear d.year ≤ 366 := by
    unfold daysInYear
    split <;> decide
  unfold weeksBegun at hweek
  omega

/-- **The number goes up by one exactly on the first weekday**, from a day to the next one of the
year. -/
theorem week_succ (hyear : e.year = d.year) (hnext : e.yearday = d.yearday + 1) (first : ℤ) :
    e.week first = d.week first + if (e.weekday : ℤ) = first % 7 then 1 else 0 := by
  have hnewYear : e.newYear = d.newYear := by rw [newYear, newYear, hyear]
  have hnumber := e.dayNumber_eq
  have hweekday : (e.weekday : ℤ) = ((d.newYear : ℤ) + d.yearday) % 7 := by
    rw [weekday]
    omega
  rw [week_eq_count, week_eq_count, hnext, Nat.count_succ, hnewYear, hweekday]

end Date

/-! ## Dates in a format -/

/-- A format in which each `%` stands in front of a letter. -/
inductive WholeDirectives : List Char → Prop where
  | nil : WholeDirectives []
  | plain {c : Char} {cs : List Char} : c ≠ '%' → WholeDirectives cs → WholeDirectives (c :: cs)
  | directive {c : Char} {cs : List Char} :
      WholeDirectives cs → WholeDirectives ('%' :: c :: cs)

variable {locale : Locale} {d : Date} {nested : String → String}

theorem expandDate_plain {c : Char} (hc : c ≠ '%') (cs : List Char) :
    expandDate locale d nested (c :: cs) =
      String.singleton c ++ expandDate locale d nested cs :=
  expandDate.eq_4 locale d nested c cs (fun h _ => hc h) (fun _ _ h _ => hc h)

theorem expandDate_append {cs : List Char} (h : WholeDirectives cs) (rest : List Char) :
    expandDate locale d nested (cs ++ rest) =
      expandDate locale d nested cs ++ expandDate locale d nested rest := by
  induction h with
  | nil => exact String.empty_append.symm
  | plain hc _ ih =>
    rw [List.cons_append, expandDate_plain hc, expandDate_plain hc, ih, String.append_assoc]
  | directive _ ih =>
    rw [List.cons_append, List.cons_append, expandDate, expandDate, ih, String.append_assoc]

/-- **A format is expanded in parts.** -/
theorem formatDate_append {before : String} (h : WholeDirectives before.toList) (after : String) :
    formatDate d (before ++ after) locale =
      formatDate d before locale ++ formatDate d after locale := by
  rw [formatDate, String.toList_append, expandDate_append h]
  rfl

/-- Arguments that name a language: English if there are none. -/
inductive IsLanguage : List Value → Locale → Prop where
  | omitted : IsLanguage [] .english
  | missing : IsLanguage [.none] .english
  | given {tag : String} : IsLanguage [.str tag] (.ofTag tag)

/-- The function `format` makes a text of a date. -/
def Formats (d : Date) (format : String) (args : List Value) (text : String) : Prop :=
  ∀ (ev : Evaluator) (m : Machine),
    callFunction ev "format" (.date d :: .str format :: args) m = .ok (.str text) m

theorem IsLanguage.formats {args : List Value} (h : IsLanguage args locale) (d : Date)
    (format : String) : Formats d format args (formatDate d format locale) := by
  intro ev m
  cases h <;> rfl

/-! ## The method and the directives -/

/-- Arguments that stand for a first weekday: Monday if there are none. -/
inductive IsFirstWeekday : List Value → ℤ → Prop where
  | omitted : IsFirstWeekday [] 0
  | missing : IsFirstWeekday [.none] 0
  | given {v : Value} {n : Int64} : v.asInt? = some n → IsFirstWeekday [v] n.toInt

/-- The method reads them so. -/
theorem IsFirstWeekday.read {args : List Value} {first : ℤ} (h : IsFirstWeekday args first)
    (d : Date) : Builtin.dateMethod ⟨.week, args⟩ d = .ok (.ofNat (d.week first)) := by
  have hread {bound : Option Int64} (hbound : optionalAs (intArg "week") args 0 = .ok bound)
      (hfirst : (bound.map Int64.toInt).getD 0 = first) :
      Builtin.dateMethod ⟨.week, args⟩ d = .ok (.ofNat (d.week first)) := by
    change (optionalAs (intArg "week") args 0).map _ = _
    rw [hbound, ← hfirst]
    rfl
  cases h with
  | omitted => exact hread (optionalAs_of_length_le (Nat.le_refl _)) rfl
  | missing => exact hread (optionalAs_of_getElem? rfl .missing) rfl
  | given hn => exact hread (optionalAs_of_getElem? rfl (.given hn)) rfl

theorem IsFirstWeekday.callMethod_week {args : List Value} {first : ℤ}
    (h : IsFirstWeekday args first) (ev : Evaluator) (d : Date) (m : Machine) :
    callMethod ev (.date d) "week" args m = .ok (.ofNat (d.week first)) m := by
  have hresolve : Method.resolve (.date d) "week" args.length = .ok .week := by
    cases h <;> rfl
  exact callMethod_eq_ok .week hresolve (congrArg lift (h.read d))

/-- The directives for week numbers, and the weekdays on which their weeks begin. -/
def weekDirectives : List (String × ℤ) := [("%W", 0), ("%U", 6)]

theorem formatDate_week {directive : String} {first : ℤ}
    (h : (directive, first) ∈ weekDirectives) (d : Date) (locale : Locale) (after : String) :
    formatDate d (directive ++ after) locale =
      Text.twoDigits (d.week first) ++ formatDate d after locale := by
  unfold formatDate
  rw [String.toList_append]
  simp only [weekDirectives, List.mem_cons, List.not_mem_nil, or_false, Prod.mk.injEq] at h
  obtain ⟨rfl, rfl⟩ | ⟨rfl, rfl⟩ := h <;> rfl

/-- **Week numbers count first weekdays.** A week number is the number of days from January 1 up to
the date that fall on the first weekday. So it is 0 before there is one, goes up by one exactly on
such days, and depends on the first weekday only modulo 7. The method `week` gives it for every
integer, and the directives `%W` and `%U` for Monday and for Sunday, wherever they stand. -/
theorem week_counts_weekdays (d : Date) :
    (∀ args first, IsFirstWeekday args first → ∃ k : Int64, k.toInt = d.week first ∧
      ∀ ev m, callMethod ev (.date d) "week" args m = .ok (.int k) m) ∧
    (∀ first : ℤ, (d.weekdaysUpTo first).encard = d.week first ∧ d.week first ≤ 53 ∧
      (d.week first = 0 ↔ ∀ e, e ∉ d.weekdaysUpTo first) ∧
      (∀ e : Date, e.year = d.year → e.yearday = d.yearday + 1 →
        e.week first = d.week first + if (e.weekday : ℤ) = first % 7 then 1 else 0) ∧
      ∀ other : ℤ, other % 7 = first % 7 → d.week other = d.week first) ∧
    ∀ directive first, (directive, first) ∈ weekDirectives → ∀ args locale,
      IsLanguage args locale → ∀ before after : String, WholeDirectives before.toList →
      ∃ front back, Formats d before args front ∧ Formats d after args back ∧
        Formats d (before ++ directive ++ after) args
          (front ++ Text.twoDigits (d.week first) ++ back) := by
  refine ⟨fun args first hargs => ?_, fun first => ?_, fun directive first hdirective args locale
    hlanguage before after hbefore => ?_⟩
  · have hle := d.week_le first
    refine ⟨Number.ofCount (d.week first), ?_, fun ev m => hargs.callMethod_week ev d m⟩
    rw [toInt_ofCount]
    omega
  · refine ⟨d.encard_weekdaysUpTo first, d.week_le first, ?_, fun e hyear hnext =>
      Date.week_succ hyear hnext first, fun other => Date.week_congr⟩
    rw [← Set.eq_empty_iff_forall_notMem, ← Set.encard_eq_zero, d.encard_weekdaysUpTo,
      Nat.cast_eq_zero]
  · refine ⟨_, _, hlanguage.formats d before, hlanguage.formats d after, ?_⟩
    have hformats := hlanguage.formats d (before ++ (directive ++ after))
    rwa [formatDate_append hbefore, formatDate_week hdirective, ← String.append_assoc,
      ← String.append_assoc] at hformats

/-- A Sunday on January 1, the least first weekday, which is a Sunday too, and the day after. -/
theorem week_counts_weekdays_sunday :
    let d : Date := ⟨2023, 1, 1, 12, 0, 0, 0, by decide⟩
    let next : Date := ⟨2023, 1, 2, 0, 0, 0, 0, by decide⟩
    let least : ℤ := Int64.minValue.toInt
    IsFirstWeekday [.int Int64.minValue] least ∧
      (∃ k : Int64, k.toInt = (1 : ℕ) ∧
        ∀ ev m, callMethod ev (.date d) "week" [.int Int64.minValue] m = .ok (.int k) m) ∧
      (d.weekdaysUpTo least).encard = (1 : ℕ) ∧
      next.year = d.year ∧ next.yearday = d.yearday + 1 ∧ next.week least = 1 ∧
      (6 : ℤ) % 7 = least % 7 ∧ d.week 6 = d.week least ∧
      ("%U", 6) ∈ weekDirectives ∧ IsLanguage [.str "de_AT"] (.ofTag "de_AT") ∧
      WholeDirectives "100%%".toList ∧
      ∃ front back, Formats d "100%%" [.str "de_AT"] front ∧ Formats d "%W" [.str "de_AT"] back ∧
        Formats d ("100%%" ++ "%U" ++ "%W") [.str "de_AT"] (front ++ "01" ++ back) := by
  intro d next least
  have hargs : IsFirstWeekday [.int Int64.minValue] least := .given rfl
  have hbefore : WholeDirectives "100%%".toList :=
    .plain (by decide) (.plain (by decide) (.plain (by decide) (.directive .nil)))
  obtain ⟨hmethod, hlaws, hformats⟩ := week_counts_weekdays d
  obtain ⟨hcount, -, -, hsucc, hmod⟩ := hlaws least
  have hone : d.week least = 1 := by decide
  have hnext := hsucc next rfl (by decide)
  have hdirective : ("%U", (6 : ℤ)) ∈ weekDirectives := by simp [weekDirectives]
  rw [hone] at hcount
  refine ⟨hargs, ?_, hcount, rfl, by decide, by rw [hnext, hone]; decide, by decide,
    hmod 6 (by decide), hdirective, .given, hbefore, ?_⟩
  · obtain ⟨k, hk, hcall⟩ := hmethod _ _ hargs
    exact ⟨k, by rw [hk, hone], hcall⟩
  · have hdigits : Text.twoDigits (d.week 6) = "01" := by
      rw [hmod 6 (by decide), hone]
      rfl
    rw [← hdigits]
    exact hformats "%U" 6 hdirective [.str "de_AT"] _ .given "100%%" "%W" hbefore

end Templating
