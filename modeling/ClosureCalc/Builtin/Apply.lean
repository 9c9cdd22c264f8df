/-
What the built-in functions compute.

* `Elementary.apply`: the functions of one number.
* `numberAt`: reads one argument, which must be a number.
* `Builtin.apply`: reads the arguments in order and computes, or complains.
  Only the two random functions change the generator.
-/
import ClosureCalc.Value
import ClosureCalc.Numeric.CubeRoot
import ClosureCalc.Numeric.Generator
import ClosureCalc.Numeric.Hypotenuse

namespace ClosureCalc

/-- Rounds toward zero. -/
def truncate (x : Float) : Float := if x < 0 then x.ceil else x.floor

/-- One with the sign of the number; a zero and what is no number stay as they
are. -/
def signOf (x : Float) : Float :=
  if x < 0 then -1 else if 0 < x then 1 else x

/-- The calculation of an elementary function. -/
def Elementary.compute : Elementary → Float → Float
  | sin => Float.sin
  | cos => Float.cos
  | tan => Float.tan
  | asin => Float.asin
  | acos => Float.acos
  | atan => Float.atan
  | sinh => Float.sinh
  | cosh => Float.cosh
  | tanh => Float.tanh
  | ln => Float.log
  | log2 => Float.log2
  | log10 => Float.log10
  | exp => Float.exp
  | sqrt => Float.sqrt
  | cbrt => cubeRoot
  | floor => Float.floor
  | ceil => Float.ceil
  | round => Float.round
  | trunc => truncate
  | abs => Float.abs
  | sign => signOf

/-- The value of an elementary function. The absolute value only changes a
sign; the others calculate. -/
def Elementary.apply : Elementary → Number → Number
  | abs, n => n.onSign Float.abs
  | f, n => f.compute n.toFloat

/-- The lesser of two numbers, the last of equals; what is no number does not
count. -/
def lesser (a b : Number) : Number :=
  if a.isNaN || decide (b.toFloat ≤ a.toFloat) then b else a

/-- The greater of two numbers, the last of equals; what is no number does
not count. -/
def greater (a b : Number) : Number :=
  if a.isNaN || decide (a.toFloat ≤ b.toFloat) then b else a

/-- The nearest number between two bounds. -/
def clampTo (low high x : Number) : Number :=
  if x.toFloat < low.toFloat then low
  else if high.toFloat < x.toFloat then high
  else x

/-- The argument at an index, which must be a number. -/
def numberAt (args : List Value) (i : Nat) : Except Complaint Number :=
  match args[i]? with
  | some (.number n) => .ok n
  | some other => .error (.notNumber (i + 1) other.kind)
  | none => .error (.missing (i + 1))

/-- All arguments from index `i` on, the first `n` of them, combined with a
number from the left. -/
def foldNumbers (f : Number → Number → Number) (args : List Value) :
    Nat → Nat → Number → Except Complaint Number
  | 0, _, acc => .ok acc
  | n + 1, i, acc => do
    foldNumbers f args n (i + 1) (f acc (← numberAt args i))

namespace Builtin

/-- Whether a range of random numbers can be drawn from. -/
def rangeComplaint? (low high : Float) : Option Complaint :=
  if !low.isFinite || !high.isFinite then some (.unboundedRange low high)
  else if !decide (low < high) then some .emptyRange
  else if !(high - low).isFinite then some (.wideRange low high)
  else none

/-- The value of a built-in function, and the generator afterwards. -/
def apply (b : Builtin) (args : List Value) (g : Generator) :
    Except Complaint (Number × Generator) := do
  match b with
  | elementary f => return (f.apply (← numberAt args 0), g)
  | atan2 =>
    let y ← numberAt args 0
    let x ← numberAt args 1
    return (y.toFloat.atan2 x.toFloat, g)
  | log =>
    let x ← numberAt args 0
    if args.length = 1 then return (x.toFloat.log, g)
    else return (x.toFloat.log / (← numberAt args 1).toFloat.log, g)
  | min =>
    return (← foldNumbers lesser args (args.length - 1) 1 (← numberAt args 0), g)
  | max =>
    return (← foldNumbers greater args (args.length - 1) 1 (← numberAt args 0), g)
  | clamp =>
    let x ← numberAt args 0
    let low ← numberAt args 1
    let high ← numberAt args 2
    if low.toFloat ≤ high.toFloat then return (clampTo low high x, g)
    else throw (.invalidRange low.toFloat high.toFloat)
  | hypot =>
    let x ← numberAt args 0
    let y ← numberAt args 1
    return (hypotenuse x y, g)
  | random =>
    let (drawn, g) := g.unit
    return (drawn, g)
  | randomRange =>
    let low := (← numberAt args 0).toFloat
    let high := (← numberAt args 1).toFloat
    match rangeComplaint? low high with
    | some complaint => throw complaint
    | none =>
      let (drawn, g) := g.between low high
      return (drawn, g)

end Builtin

end ClosureCalc
