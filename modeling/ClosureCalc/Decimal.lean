/-
Decimal numbers and their binary neighbours.

* `Decimal`: a coefficient with a power of ten.
* `Decimal.toFloat`: the binary number nearest to a decimal, a tie going to
  the even mantissa.
* `Magnitude`: the mantissa and the power of two of a binary number.
* `Magnitude.shortest`: the decimal with the fewest digits among those that
  are read back as the given number. It is searched on one decimal grid
  after another, from coarse to fine, in exact arithmetic.
-/
namespace ClosureCalc

/-- The number `coefficient * 10 ^ exponent`. -/
structure Decimal where
  coefficient : Nat
  exponent : Int
deriving DecidableEq, Inhabited, Repr

/-- The nearest binary number, a tie going to the even mantissa; beyond the
largest finite number that is infinity. -/
def Decimal.toFloat (d : Decimal) : Float :=
  Float.ofScientific d.coefficient (decide (d.exponent < 0)) d.exponent.natAbs

/-- The size `mantissa * 2 ^ exponent` of a finite binary number. -/
structure Magnitude where
  mantissa : Nat
  exponent : Int
deriving DecidableEq, Inhabited, Repr

namespace Magnitude

/-- The power of two of the smallest positive number. -/
def leastExponent : Int := -1074

/-- The mantissa from which on a number carries its full 53 bits. -/
def fullMantissa : Nat := 0x10000000000000

/-- The size of a finite number, read from its bits: a zero exponent field
stands for the least power of two and a mantissa without its leading bit. -/
def ofFloat (n : Float) : Magnitude :=
  let bits := n.toBits.toNat % 0x8000000000000000
  let field := bits / fullMantissa
  let fraction := bits % fullMantissa
  if field = 0 then ⟨fraction, leastExponent⟩
  else ⟨fullMantissa + fraction, leastExponent + (field - 1 : Nat)⟩

/-! ### The reals that round to a number

Everything is measured in quarters of the unit in the last place, so that the
ends of the interval are whole numbers. -/

/-- Four times the mantissa: the number itself in quarter units. -/
def centre (m : Magnitude) : Nat := 4 * m.mantissa

/-- The lower end. Below a power of two the neighbour is only half as far
away, unless there is no finer unit. -/
def lowerEnd (m : Magnitude) : Nat :=
  m.centre - if m.mantissa = fullMantissa ∧ leastExponent < m.exponent then 1 else 2

/-- The upper end. -/
def upperEnd (m : Magnitude) : Nat := m.centre + 2

/-- How many quarter units the grid of step `10 ^ k` has per step, as a
fraction `(steps, quarters)`: `x` quarter units are `x * steps / quarters`
steps. -/
def gridScale (m : Magnitude) (k : Int) : Nat × Nat :=
  let q := m.exponent - 2
  (Nat.pow 2 q.toNat * Nat.pow 10 (-k).toNat, Nat.pow 2 (-q).toNat * Nat.pow 10 k.toNat)

/-- Whether `c` steps of the grid `10 ^ k` are read back as the number: they
lie between the ends, which count only for an even mantissa. -/
def readsBack (m : Magnitude) (k : Int) (c : Nat) : Bool :=
  let (a, b) := m.gridScale k
  if m.mantissa % 2 = 0 then
    decide (m.lowerEnd * a ≤ c * b) && decide (c * b ≤ m.upperEnd * a)
  else decide (m.lowerEnd * a < c * b) && decide (c * b < m.upperEnd * a)

/-- The number of whole steps of the grid `10 ^ k` in the number. -/
def wholeSteps (m : Magnitude) (k : Int) : Nat :=
  let (a, b) := m.gridScale k
  m.centre * a / b

/-- Whether the number lies nearer to its lower neighbour on the grid than to
its upper one. -/
def nearerBelow (m : Magnitude) (k : Int) : Bool :=
  let (a, b) := m.gridScale k
  decide (2 * (m.centre * a % b) < b)

/-- The neighbour of the number on the grid `10 ^ k` that is read back, the
nearer one if both are, the upper one if both are equally near. -/
def onGrid? (m : Magnitude) (k : Int) : Option Nat :=
  let c := m.wholeSteps k
  match m.readsBack k c, m.readsBack k (c + 1) with
  | true, true => some (if m.nearerBelow k then c else c + 1)
  | true, false => some c
  | false, true => some (c + 1)
  | false, false => none

/-- Tries the grid `10 ^ k` and then finer ones, at most `n` in all. -/
def search (m : Magnitude) : Nat → Int → Decimal
  | 0, k => ⟨m.wholeSteps k, k⟩
  | n + 1, k =>
    match m.onGrid? k with
    | some c => ⟨c, k⟩
    | none => m.search n (k - 1)

/-- A grid whose step exceeds the number, from a bound on its logarithm. -/
def coarsest (m : Magnitude) : Int :=
  (m.mantissa.log2 + m.exponent + 1) * 30103 / 100000 + 2

/-- The decimal with the fewest digits that is read back as the number.
Seventeen digits always suffice, so the search stays within its bound. -/
def shortest (m : Magnitude) : Decimal := m.search 24 m.coarsest

end Magnitude

end ClosureCalc
