import Templating.Calendar.Date

/-!
# Whole months

A number of months shifts a date to the same day of another month, or to the last day of that month
if it is shorter.
-/

namespace Templating

open Calendar

/-- A whole number of months. -/
structure Months where
  count : Int64
deriving DecidableEq, Inhabited

namespace Months

/-- Whether no month is counted. -/
def isZero (m : Months) : Bool := m.count = 0

/-- The last day up to `day` that a month of some length has, one day back at a time. -/
def backTo (length : Nat) : Nat → Nat
  | 0 => 0
  | day + 1 => if length < day + 1 then backTo length day else day + 1

theorem backTo_eq_min (length day : Nat) : backTo length day = min day length := by
  induction day with
  | zero => exact (Nat.zero_min length).symm
  | succ day ih =>
    rw [backTo, ih]
    split <;> omega

/-- The date shifted by some months, with the day cut to the length of the month it falls into. -/
def addTo (m : Months) (d : Date) : Except Error Date :=
  let index : Int := d.year * 12 + d.month - 1 + m.count.toInt
  let year := index / 12
  if ¬ Number.Fits index ∨ year < 1 ∨ 9999 < year then .error .outOfRange
  else
    let month := (index % 12 + 1).toNat
    let day := backTo (daysInMonth year month) d.day
    Date.ofParts year month day d.hour d.minute d.second d.micro

/-- Months are ordered by their number. -/
def compare (a b : Months) : Ordering := Ord.compare a.count.toInt b.count.toInt

/-- The constructor form, such as `monthdelta(3)`. -/
def repr (m : Months) : String :=
  if m.count = 0 then "monthdelta()" else s!"monthdelta({m.count.toInt})"

/-- The readable form, such as `3 months`. -/
def text (m : Months) : String :=
  let n := m.count.toInt
  if n.natAbs = 1 then s!"{n} month" else s!"{n} months"

end Months

end Templating
