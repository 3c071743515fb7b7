import Templating.Calendar.Date
import Templating.Proofs.Number.Digits

/-!
# Dates and durations read back from their parts

* `Date.ofParts_self`: the components of a date give the date.
* `Date.ofCompact_compact`: **the form of twenty digits gives the date back**.
* `Duration.ofParts?_self`: the components of a duration give the duration.
-/

namespace Templating

open Calendar Text

/-- The digits of a number in a field of a fixed width. -/
theorem length_padded {width n : Nat} (hwidth : 0 < width) (h : n < 10 ^ width) :
    (padded 10 width n).toList.length = width := by
  have := (Nat.length_toDigits_le_iff (b := 10) (by decide) hwidth).2 h
  simp [padded, padLeft]
  omega

theorem isDigit_of_mem_padded {width n : Nat} {c : Char} (h : c ∈ (padded 10 width n).toList) :
    c.isDigit := by
  simp only [padded, padLeft, String.toList_ofList, List.mem_append, List.mem_replicate] at h
  rcases h with ⟨-, rfl⟩ | h
  · rfl
  · exact Decimal.isDigit_of_mem_toDigits h

theorem ofDigits_padded (width n : Nat) : Decimal.ofDigits (padded 10 width n).toList = n := by
  simp [padded, Decimal.ofDigits_padLeft]

theorem daysInMonth_le (year : Int) (month : Nat) : daysInMonth year month ≤ 31 := by
  unfold daysInMonth
  split
  · split <;> decide
  · split <;> decide

namespace Date

variable (d : Date)

/-- The components of a date pass their checks. -/
theorem check_self {component : Component} {value low high : Int} (h₁ : low ≤ value)
    (h₂ : value ≤ high) : check component value low high = .ok () := by
  rw [check, if_pos ⟨h₁, h₂⟩]

theorem ofParts_self :
    ofParts d.year d.month d.day d.hour d.minute d.second d.micro = .ok d := by
  have hdays := daysInMonth_le d.year d.month
  obtain ⟨hy, hy', hm, hm', hd, hd', hh, hmin, hs, hmicro⟩ := d.valid
  simp only [microsPerSecond] at hmicro
  rw [ofParts, check_self (by omega) (by omega), check_self (by omega) (by omega),
    check_self (by omega) (by omega), check_self (by omega) (by omega),
    check_self (by omega) (by omega), check_self (by omega) (by omega),
    check_self (by omega) (by omega)]
  simp only [Int.toNat_natCast]
  exact dif_pos d.valid

/-- The fields of the compact form, from the year to the microseconds. -/
def compactFields : List (List Char) :=
  [(padded 10 4 d.year).toList, (twoDigits d.month).toList, (twoDigits d.day).toList,
    (twoDigits d.hour).toList, (twoDigits d.minute).toList, (twoDigits d.second).toList,
    (padded 10 6 d.micro).toList]

theorem toList_compact : d.compact.toList = d.compactFields.flatten := by
  simp [compact, compactFields]

theorem length_compactFields : d.compactFields.map List.length = [4, 2, 2, 2, 2, 2, 6] := by
  have hdays := daysInMonth_le d.year d.month
  obtain ⟨hy, hy', hm, hm', hd, hd', hh, hmin, hs, hmicro⟩ := d.valid
  simp only [microsPerSecond] at hmicro
  simp only [compactFields, twoDigits, List.map_cons, List.map_nil, List.cons.injEq, and_true]
  refine ⟨?_, ?_, ?_, ?_, ?_, ?_, ?_⟩ <;> exact length_padded (by decide) (by omega)

theorem isDigit_of_mem_compact {c : Char} (h : c ∈ d.compact.toList) : c.isDigit := by
  rw [toList_compact] at h
  obtain ⟨field, hfield, hc⟩ := List.mem_flatten.1 h
  simp only [compactFields, List.mem_cons, List.not_mem_nil, or_false] at hfield
  rcases hfield with rfl | rfl | rfl | rfl | rfl | rfl | rfl <;> exact isDigit_of_mem_padded hc

theorem length_compact : d.compact.toList.length = 20 := by
  rw [toList_compact, List.length_flatten, length_compactFields]
  rfl

/-- **The form of twenty digits gives the date back.** -/
theorem ofCompact_compact : ofCompact d.compact = .ok d := by
  have hall : d.compact.toList.all Char.isDigit := by
    simpa using fun c hc => d.isDigit_of_mem_compact (c := c) hc
  have hlen := d.length_compactFields
  have hfields := d.toList_compact
  simp only [compactFields, List.map_cons, List.map_nil, List.cons.injEq, and_true] at hlen
  obtain ⟨h₁, h₂, h₃, h₄, h₅, h₆, h₇⟩ := hlen
  simp only [ofCompact, d.length_compact, hall, and_self, if_true]
  rw [hfields]
  -- each field ends where the next one begins, so cutting at the sums of their widths isolates it
  simp (disch := omega) only [compactFields, List.flatten_cons, List.flatten_nil, List.append_nil,
    List.drop_append, List.take_append, List.drop_of_length_le, List.take_of_length_le,
    List.nil_append, h₁, h₂, h₃, h₄, h₅, h₆, Nat.reduceSub, List.drop_zero, Nat.sub_self,
    List.take_zero]
  simp only [twoDigits, ofDigits_padded]
  exact d.ofParts_self

end Date

/-- The components of a duration give the duration. -/
theorem Duration.ofParts?_self (d : Duration) :
    Duration.ofParts? d.days.toInt d.seconds d.micros = some d := by
  obtain ⟨days, seconds, micros, hseconds, hmicros⟩ := d
  simp only [secondsPerDay, microsPerSecond] at hseconds hmicros
  have hdays : ((days.toInt * secondsPerDay + seconds) * microsPerSecond + micros) / microsPerDay =
      days.toInt := by
    simp only [secondsPerDay, microsPerSecond, microsPerDay]
    omega
  have hrest : (((days.toInt * secondsPerDay + seconds) * microsPerSecond + micros) %
      microsPerDay).toNat = seconds * microsPerSecond + micros := by
    simp only [secondsPerDay, microsPerSecond, microsPerDay]
    omega
  have hs : (seconds * microsPerSecond + micros) / microsPerSecond = seconds := by
    simp only [microsPerSecond]
    omega
  have hm : (seconds * microsPerSecond + micros) % microsPerSecond = micros := by
    simp only [microsPerSecond]
    omega
  simp only [Duration.ofParts?, Duration.ofTotal?, hdays, hrest, Number.ofInt?_toInt,
    Option.map_some, hs, hm]

end Templating
