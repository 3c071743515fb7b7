/-!
# Binary floating point, exactly

A finite `Float` is `± m · 2 ^ e` with a natural `m`. The operations here decode it, work on `m`
and `e` in exact arithmetic, and round once at the end where rounding is needed.

* `Reading`, `read`: what a float stands for.
* `ofScaled`, `ofDecimal`: the float nearest to `± m · 2 ^ e` and to `± m · 10 ^ e`.
* `floor?`, `truncate?`: integral parts of finite floats.
* `remainder`: the remainder of the division that truncates, computed without rounding.
-/

namespace Templating.Binary64

open Float.Model (UnpackedFloat)

/-- What a float stands for. -/
inductive Reading where
  | nan
  | infinite (negative : Bool)
  /-- The number `± mantissa · 2 ^ exponent`; a zero keeps its sign. -/
  | finite (negative : Bool) (mantissa : Nat) (exponent : Int)
deriving DecidableEq, Repr

/-- The sign as the minus it may carry. -/
def isMinus : UnpackedFloat.Sign → Bool
  | .negative => true
  | .positive => false

/-- The sign that carries a minus, or not. -/
def signOf (negative : Bool) : UnpackedFloat.Sign :=
  if negative then .negative else .positive

/-- What a float stands for. -/
def read (x : Float) : Reading :=
  match x.toModel.unpack with
  | .notANumber => .nan
  | .infinity s => .infinite (isMinus s)
  | .zero s => .finite (isMinus s) 0 0
  | .finite s m e _ => .finite (isMinus s) m e

/-- Positive infinity. -/
def infinity : Float := Float.ofBits 0x7ff0000000000000

/-- The value that is not a number. -/
def nan : Float := Float.ofBits 0x7ff8000000000000

/-- A float with a minus in front if asked. -/
def withSign (negative : Bool) (x : Float) : Float := if negative then -x else x

/-- The float nearest to `± m · 2 ^ e`; of two equally near, the one with the even mantissa. -/
def ofScaled (negative : Bool) (m : Nat) (e : Int) : Float :=
  if m = 0 then withSign negative 0
  else Float.ofModel (.pack (UnpackedFloat.round .binary64 (signOf negative) m e))

/-- The number `m · 10 ^ e` to 53 bits. Beyond the exponents that any float has the answer is an
infinity or a zero. -/
def decimal (m : Nat) (e : Int) : UnpackedFloat :=
  let digits : Int := (Nat.toDigits 10 m).length
  if m = 0 ∨ e + digits < -330 then .zero .positive
  else if 320 < e + digits then .infinity .positive
  else .ofScientific .binary64 m e

/-- The float nearest to `± m · 10 ^ e`. -/
def ofDecimal (negative : Bool) (m : Nat) (e : Int) : Float :=
  Float.ofModel (.pack (if negative then (decimal m e).neg else decimal m e))

/-- The float nearest to an integer. -/
def ofInt (n : Int) : Float := Float.ofInt n

/-- The float nearest to a word. -/
def ofWord (n : Int64) : Float := Float.ofInt n.toInt

/-- The largest integer that is not above `± m · 2 ^ e`. -/
def floorScaled (negative : Bool) (m : Nat) (e : Int) : Int :=
  let n : Int := if negative then -(m : Int) else m
  if 0 ≤ e then n * Nat.pow 2 e.toNat else n.fdiv (Nat.pow 2 (-e).toNat)

/-- The integer part of `± m · 2 ^ e`, toward zero. -/
def truncateScaled (negative : Bool) (m : Nat) (e : Int) : Int :=
  let n : Int := if negative then -(m : Int) else m
  if 0 ≤ e then n * Nat.pow 2 e.toNat else n.tdiv (Nat.pow 2 (-e).toNat)

/-- The largest integer that is not above a finite float. -/
def floor? (x : Float) : Option Int :=
  match read x with
  | .finite s m e => some (floorScaled s m e)
  | _ => none

/-- The integer part of a finite float. -/
def truncate? (x : Float) : Option Int :=
  match read x with
  | .finite s m e => some (truncateScaled s m e)
  | _ => none

/-- The largest integral float that is not above a float; zeros keep their sign. -/
def floor (x : Float) : Float :=
  match read x with
  | .finite s m e =>
    let n := floorScaled s m e
    if n = 0 then withSign s 0 else ofScaled (n < 0) n.natAbs 0
  | _ => x

/-- The remainder `x - q · y` where `q` is `x / y` cut toward zero. It carries the sign of `x`. -/
def remainder (x y : Float) : Float :=
  match read x, read y with
  | .finite s m e, .finite _ n f =>
    if n = 0 then nan
    else
      let low := min e f
      let r := (m * Nat.pow 2 (e - low).toNat) % (n * Nat.pow 2 (f - low).toNat)
      ofScaled s r low
  | .finite _ _ _, .infinite _ => x
  | _, _ => nan

/-- The remainder that is never negative. -/
def remainderUp (x y : Float) : Float :=
  let r := remainder x y
  if r < 0 then r + y.abs else r

/-- The larger of two floats that are numbers. -/
def larger (x y : Float) : Float := if x < y then y else x

/-- The smaller of two floats that are numbers. -/
def smaller (x y : Float) : Float := if y < x then y else x

end Templating.Binary64
