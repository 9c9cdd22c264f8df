/-
The cube root.

* `CubeRoot.refine`: the whole cube root of a natural number, bit by bit.
* `cubeRoot`: the number nearest to the cube root of a number. The mantissa is
  stretched until its whole root has more bits than a number can hold; one
  further bit records whether the root was exact, so that the final rounding
  sees on which side of the middle it lies.
-/
import ClosureCalc.Decimal

namespace ClosureCalc

namespace CubeRoot

/-- The third power. -/
def cube (r : Nat) : Nat := r * r * r

/-- Improves `r` by its bits below `2 ^ n`, keeping its cube at most `m`. -/
def refine (m : Nat) : Nat → Nat → Nat
  | 0, r => r
  | n + 1, r =>
    let larger := r + Nat.pow 2 n
    refine m n (if cube larger ≤ m then larger else r)

/-- The number `2 ^ t`, for exponents of normal numbers. -/
def powerOfTwo (t : Int) : Float :=
  Float.ofBits ((1023 + t).toNat * Magnitude.fullMantissa).toUInt64

/-- The cube root of a positive size. -/
def ofMagnitude (m : Magnitude) : Float :=
  -- stretch the mantissa to 181 bits or a little more, by a cube
  let spare := m.exponent + m.mantissa.log2 - 180
  let stretched := m.mantissa * Nat.pow 2 (180 + spare % 3 - m.mantissa.log2).toNat
  let root := refine stretched 61 0
  let sticky := if cube root = stretched then 0 else 1
  (2 * root + sticky).toUInt64.toFloat * powerOfTwo (spare / 3 - 1)

end CubeRoot

/-- The number nearest to the cube root of a number. -/
def cubeRoot (x : Float) : Float :=
  if x.isFinite && x != 0 then
    let root := CubeRoot.ofMagnitude (Magnitude.ofFloat x)
    if x < 0 then -root else root
  else x

end ClosureCalc
