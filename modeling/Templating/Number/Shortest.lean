/-!
# The fewest digits that read back

A positive binary number `m · 2 ^ e` with 53-bit mantissas is the rounding of every real in an
interval around it. `shortest` looks for the coarsest decimal grid with a point in that interval.

* `Interval`: the number and the ends of its interval as fractions over one denominator.
* `shortest`: a point `s · 10 ^ g` of the coarsest such grid; of two points the nearer one, and the
  upper one if both are equally near.
-/

namespace Templating.Decimal

/-- A number between two ends, all over the same denominator. -/
structure Interval where
  low : Nat
  value : Nat
  high : Nat
  denominator : Nat
  /-- Whether the ends belong to the interval. -/
  closed : Bool

/-- The reals that round to `m · 2 ^ e`. Below a power of two the next number is half as far away,
except where the exponent is the least. -/
def Interval.ofScaled (m : Nat) (e : Int) : Interval :=
  let scale := Nat.pow 2 (e - 2).toNat
  let below := if m = 0x10000000000000 ∧ -1074 < e then 1 else 2
  { low := (4 * m - below) * scale
    value := 4 * m * scale
    high := (4 * m + 2) * scale
    denominator := Nat.pow 2 (2 - e).toNat
    closed := m % 2 = 0 }

/-- The greatest `p` with `10 ^ p` not above a positive fraction. -/
def magnitude (num den : Nat) : Int :=
  if den ≤ num then ((Nat.toDigits 10 (num / den)).length : Int) - 1
  else -((Nat.toDigits 10 ((den - 1) / num)).length : Int)

/-- The grid point in the interval that is nearest to the number, in units of `10 ^ g`. -/
def Interval.nearest? (i : Interval) (g : Int) : Option Nat :=
  let up := Nat.pow 10 (-g).toNat
  let unit := i.denominator * Nat.pow 10 g.toNat
  let q := i.value * up / unit
  let inside (a b : Nat) : Bool := if i.closed then a ≤ b else a < b
  let down := inside (i.low * up) (q * unit)
  let above := inside ((q + 1) * unit) (i.high * up)
  let upperNearer := (2 * q + 1) * unit ≤ 2 * (i.value * up)
  if down && !(above && upperNearer) then some q
  else if above then some (q + 1)
  else none

/-- A significand without zeros at its end, and the exponent it then has. -/
def strip : Nat → Nat → Int → Nat × Int
  | 0, s, g => (s, g)
  | fuel + 1, s, g => if s % 10 = 0 ∧ s ≠ 0 then strip fuel (s / 10) (g + 1) else (s, g)

/-- The fewest digits that read back as `m · 2 ^ e`, as a significand and a power of ten. Seventeen
digits are always enough. -/
def shortest (m : Nat) (e : Int) : Nat × Int :=
  let i := Interval.ofScaled m e
  let p := magnitude i.value i.denominator
  let grids := (List.range 17).map fun n : Nat => p - n
  let found := grids.findSome? fun g => (i.nearest? g).map fun s => (s, g)
  let last := i.value * Nat.pow 10 (16 - p).toNat / (i.denominator * Nat.pow 10 (p - 16).toNat)
  let (s, g) := found.getD (last, p - 16)
  strip 20 s g

end Templating.Decimal
