/-
How numbers are written.

* `Style`: the two decisions that tell the program's number formats apart.
* `Style.write`: the text of a number in a style, with the fewest digits that
  are read back.
* `Style.plain` is used wherever a number is a value or a token,
  `Style.outline` where a syntax tree is shown.
-/
import ClosureCalc.Decimal

namespace ClosureCalc

/-- A number format. -/
structure Style where
  /-- The places of the decimal point, counted from the first digit, at which
  a number is written without an exponent; all places if none are named. -/
  positional : Option (Int × Int)
  /-- Whether a whole number is written with `.0` behind it. -/
  showsFraction : Bool
deriving DecidableEq, Inhabited, Repr

namespace Style

/-- Never an exponent, and whole numbers without a point. -/
def plain : Style := ⟨none, false⟩

/-- An exponent below a ten-thousandth and from ten to the sixteenth on; whole
numbers end in `.0`. -/
def outline : Style := ⟨some (-3, 16), true⟩

/-- Whether a number whose decimal point stands at `point` is written without
an exponent. -/
def isPositional (s : Style) (point : Int) : Bool :=
  match s.positional with
  | none => true
  | some (low, high) => decide (low ≤ point) && decide (point ≤ high)

/-- The digits with the decimal point behind the first `point` of them, filled
up with zeros on either side where the point lies outside. -/
def writePositional (s : Style) (digits : List Char) (point : Int) : List Char :=
  let whole := point.toNat
  if point ≤ 0 then '0' :: '.' :: List.replicate (-point).toNat '0' ++ digits
  else if digits.length ≤ whole then
    digits ++ List.replicate (whole - digits.length) '0' ++
      (if s.showsFraction then ['.', '0'] else [])
  else digits.take whole ++ '.' :: digits.drop whole

/-- One digit before the point and the exponent behind an `e`. -/
def writeScientific (digits : List Char) (point : Int) : List Char :=
  digits.take 1 ++ (if 1 < digits.length then '.' :: digits.drop 1 else []) ++
    'e' :: (point - 1).repr.toList

/-- The text of a positive decimal. -/
def writeDecimal (s : Style) (d : Decimal) : List Char :=
  let digits := d.coefficient.repr.toList
  let point := digits.length + d.exponent
  if s.isPositional point then s.writePositional digits point
  else writeScientific digits point

/-- The text of a number. A zero keeps its sign. -/
def write (s : Style) (n : Float) : String :=
  if n.isNaN then "NaN"
  else
    let sign := if n.toBits < 0x8000000000000000 then [] else ['-']
    let size :=
      if n.isInf then ['i', 'n', 'f']
      else if n == 0 then '0' :: if s.showsFraction then ['.', '0'] else []
      else s.writeDecimal (Magnitude.ofFloat n).shortest
    String.ofList (sign ++ size)

end Style

end ClosureCalc
