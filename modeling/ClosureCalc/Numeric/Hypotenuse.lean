/-
The hypotenuse of a right triangle.

* `Hypotenuse.corrected`: the square root of the sum of squares, improved by
  one correction whose terms are arranged so that little is lost.
* `hypotenuse`: the same for legs of any size. Very long and very short legs
  are scaled first, and a leg that cannot change the other is only added.
-/
import ClosureCalc.Number

namespace ClosureCalc

namespace Hypotenuse

/-- The scale for legs near the ends of the range. -/
def scale : Float := Float.ofBits 0x1a70000000000000

/-- Squares of longer legs would overflow. -/
def longLeg : Float := Float.ofBits 0x5fe0000000000000

/-- Squares of shorter legs would lose bits. -/
def shortLeg : Float := Float.ofBits 0x2340000000000000

/-- A shorter leg below this share of the longer one does not count. -/
def negligible : Float := Float.ofBits 0x3c90000000000000

/-- The root of the sum of squares with one correction, for legs
`short ≤ long` of moderate size. -/
def corrected (long short : Float) : Float :=
  let root := (long * long + short * short).sqrt
  let (a, b) :=
    if root ≤ 2 * short then
      let d := root - short
      (long * (2 * d - long), (d - 2 * (long - short)) * d)
    else
      let d := root - long
      (2 * d * (long - 2 * short), (4 * d - short) * short + d * d)
  root - (a + b) / (2 * root)

/-- The hypotenuse over finite legs `0 ≤ short ≤ long`. -/
def overLegs (long short : Float) : Float :=
  if longLeg < long then
    if short ≤ long * negligible then long + short
    else corrected (long * scale) (short * scale) / scale
  else if short < shortLeg then
    if short / negligible ≤ long then long + short
    else corrected (long / scale) (short / scale) * scale
  else if short ≤ long * negligible then long + short
  else corrected long short

end Hypotenuse

/-- The hypotenuse over two legs of either sign. An infinite leg makes it
infinite, whatever the other leg is, unless that is a signal. -/
def hypotenuse (x y : Number) : Float :=
  let long := x.toFloat.abs
  let short := y.toFloat.abs
  if x.isSignal || y.isSignal then Number.invalid
  else if long.isInf || short.isInf then 1 / 0
  else if long.isNaN || short.isNaN then Number.invalid
  else if long < short then Hypotenuse.overLegs short long
  else Hypotenuse.overLegs long short

end ClosureCalc
