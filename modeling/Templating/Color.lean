import Templating.Number.FloatText
import Templating.Number.Word

/-!
# Colors

A color has four channels of eight bits: red, green, blue and alpha.

* `ofUnit`, `ofHls`, `ofHsv`: colors from components between 0 and 1.
* `hls`, `hsv`, `lum`: the components back.
* `repr`: the literal of a template, as short as it can be; `text`: the form of style sheets.
-/

namespace Templating

open Binary64

/-- Red, green, blue and alpha. -/
structure Color where
  r : UInt8
  g : UInt8
  b : UInt8
  a : UInt8
deriving DecidableEq, Inhabited

namespace Color

/-- The channel of a component between 0 and 1, cut to whole numbers and to its range. -/
def channelOf (x : Float) : UInt8 := (255 * x).toUInt8

/-- A color from red, green, blue and alpha between 0 and 1. -/
def ofUnit (r g b a : Float) : Color := ⟨channelOf r, channelOf g, channelOf b, channelOf a⟩

/-- A color without transparency. -/
def opaqueOf (r g b : UInt8) : Color := ⟨r, g, b, 255⟩

/-- One channel of a color given by hue, as a trapezoid over the circle of hues. -/
def hueChannel (m1 m2 hue : Float) : Float :=
  let hue := remainderUp hue 1
  if hue < 1 / 6 then m1 + (m2 - m1) * hue * 6
  else if hue < 0.5 then m2
  else if hue < 2 / 3 then m1 + (m2 - m1) * (2 / 3 - hue) * 6
  else m1

/-- A color from hue, luminance, saturation and alpha between 0 and 1. -/
def ofHls (h l s a : Float) : Color :=
  if s == 0 then ofUnit l l l a
  else
    let m2 := if l ≤ 0.5 then l * (1 + s) else l + s - l * s
    let m1 := 2 * l - m2
    ofUnit (hueChannel m1 m2 (h + 1 / 3)) (hueChannel m1 m2 h) (hueChannel m1 m2 (h - 1 / 3)) a

/-- The sixth of the circle of hues in which a hue lies; infinite hues lie at the far ends of the
words. -/
def sextant (h6 : Float) : Int :=
  match read h6 with
  | .finite s m e => (Number.saturate (truncateScaled s m e)).toInt % 6
  | .infinite true => Int64.minValue.toInt % 6
  | .infinite false => Int64.maxValue.toInt % 6
  | .nan => 0

/-- A color from hue, saturation, value and alpha between 0 and 1. -/
def ofHsv (h s v a : Float) : Color :=
  if s == 0 then ofUnit v v v a
  else
    let sector := floor (h * 6)
    let f := h * 6 - sector
    let p := v * (1 - s)
    let q := v * (1 - s * f)
    let t := v * (1 - s * (1 - f))
    match sextant sector with
    | 0 => ofUnit v t p a
    | 1 => ofUnit q v p a
    | 2 => ofUnit p v t a
    | 3 => ofUnit p q v a
    | 4 => ofUnit t p v a
    | _ => ofUnit v p q a

/-- The channels in order. -/
def channels (c : Color) : List UInt8 := [c.r, c.g, c.b, c.a]

/-- The channel at an index; negative indices count from the end. -/
def channel? (c : Color) (index : Int) : Option UInt8 :=
  let i := if index < 0 then index + 4 else index
  if i < 0 then none else c.channels[i.toNat]?

/-- A channel between 0 and 1. -/
def unit (c : UInt8) : Float := c.toFloat / 255

/-- The hue of components that are not all equal, given the greatest and the least of them. -/
def hue (r g b maxc minc : Float) : Float :=
  let span := maxc - minc
  let rc := (maxc - r) / span
  let gc := (maxc - g) / span
  let bc := (maxc - b) / span
  let h := if r == maxc then bc - gc else if g == maxc then 2 + rc - bc else 4 + gc - rc
  remainderUp (h / 6) 1

/-- Hue, luminance and saturation between 0 and 1. -/
def hls (c : Color) : Float × Float × Float :=
  let r := unit c.r
  let g := unit c.g
  let b := unit c.b
  let maxc := larger (larger r g) b
  let minc := smaller (smaller r g) b
  let l := (minc + maxc) / 2
  if minc == maxc then (0, l, 0)
  else
    let s := if l ≤ 0.5 then (maxc - minc) / (maxc + minc) else (maxc - minc) / (2 - maxc - minc)
    (hue r g b maxc minc, l, s)

/-- Hue, saturation and value between 0 and 1. -/
def hsv (c : Color) : Float × Float × Float :=
  let r := unit c.r
  let g := unit c.g
  let b := unit c.b
  let maxc := larger (larger r g) b
  let minc := smaller (smaller r g) b
  if minc == maxc then (0, 0, maxc) else (hue r g b maxc minc, (maxc - minc) / maxc, maxc)

/-- The alpha channel between 0 and 1. -/
def alpha (c : Color) : Float := unit c.a

/-- The luminance between 0 and 1. -/
def lum (c : Color) : Float := c.hls.2.1

/-- The color with another alpha channel. -/
def withAlpha (c : Color) (a : UInt8) : Color := { c with a }

/-- The color with another luminance and the same hue and saturation. -/
def withLum (c : Color) (lum : Float) : Color := ofHls c.hls.1 lum c.hls.2.2 c.alpha

/-- The digit in base sixteen. -/
def hexDigit (n : Nat) : Char := Nat.digitChar n

/-- The literal of a template. Alpha is left out of opaque colors, and one digit stands for a
channel if both digits of every channel are equal. -/
def repr (c : Color) : String :=
  let channels := if c.a = 255 then [c.r, c.g, c.b] else c.channels
  let digits := if channels.all fun n => n.toNat / 16 = n.toNat % 16 then
      channels.map fun n => hexDigit (n.toNat % 16)
    else channels.flatMap fun n => [hexDigit (n.toNat / 16), hexDigit (n.toNat % 16)]
  String.ofList ('#' :: digits)

/-- The form of style sheets: the literal of an opaque color, else `rgba(…)`. -/
def text (c : Color) : String :=
  if c.a = 255 then c.repr
  else s!"rgba({c.r.toNat}, {c.g.toNat}, {c.b.toNat}, {Decimal.floatPlain c.alpha})"

end Color

end Templating
