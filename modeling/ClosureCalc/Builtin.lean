/-
The functions that come with the standard scope.

* `Elementary`: the functions of one number.
* `Builtin`: these and the functions with other argument lists, each with its
  name and the number of arguments it needs at least.
* `Complaint`: why a built-in function refuses its arguments.
-/
import ClosureCalc.Decimal.Style

namespace ClosureCalc

/-- What a value is, as messages call it. -/
inductive ValueKind where
  | number | function | undefined
deriving DecidableEq, Inhabited, Repr

/-- The word for a kind of value. -/
def ValueKind.name : ValueKind → String
  | number => "number"
  | function => "function"
  | undefined => "undefined"

/-- Functions of one number. -/
inductive Elementary where
  | sin | cos | tan | asin | acos | atan | sinh | cosh | tanh
  | ln | log2 | log10 | exp | sqrt | cbrt
  | floor | ceil | round | trunc
  | abs | sign
deriving DecidableEq, Inhabited, Repr

/-- The name of an elementary function. -/
def Elementary.name : Elementary → String
  | sin => "sin"
  | cos => "cos"
  | tan => "tan"
  | asin => "asin"
  | acos => "acos"
  | atan => "atan"
  | sinh => "sinh"
  | cosh => "cosh"
  | tanh => "tanh"
  | ln => "ln"
  | log2 => "log2"
  | log10 => "log10"
  | exp => "exp"
  | sqrt => "sqrt"
  | cbrt => "cbrt"
  | floor => "floor"
  | ceil => "ceil"
  | round => "round"
  | trunc => "trunc"
  | abs => "abs"
  | sign => "sign"

/-- The built-in functions. -/
inductive Builtin where
  | elementary (f : Elementary)
  | atan2 | log | min | max | clamp | hypot | random | randomRange
deriving DecidableEq, Inhabited, Repr

namespace Builtin

/-- The name under which the standard scope declares the function. -/
def name : Builtin → String
  | elementary f => f.name
  | atan2 => "atan2"
  | log => "log"
  | min => "min"
  | max => "max"
  | clamp => "clamp"
  | hypot => "hypot"
  | random => "random"
  | randomRange => "random_range"

/-- The number of arguments a call needs at least. -/
def arity : Builtin → Nat
  | elementary _ => 1
  | atan2 => 2
  | log => 1
  | min => 1
  | max => 1
  | clamp => 3
  | hypot => 2
  | random => 0
  | randomRange => 2

end Builtin

/-- Why a built-in function refuses its arguments. Argument numbers count from
one. -/
inductive Complaint where
  | notNumber (argument : Nat) (found : ValueKind)
  | missing (argument : Nat)
  | invalidRange (low high : Float)
  | unboundedRange (low high : Float)
  | emptyRange
  | wideRange (low high : Float)
deriving DecidableEq, Inhabited

/-- The wording of a complaint. -/
def Complaint.message : Complaint → String
  | notNumber i found =>
    "argument " ++ i.repr ++ " must be a number, found '" ++ found.name ++ "'"
  | missing i => "missing argument " ++ i.repr
  | invalidRange low high => "invalid range " ++ range low high
  | unboundedRange low high => "bounds must be finite, found " ++ range low high
  | emptyRange => "min must be less than max"
  | wideRange low high => "range " ++ range low high ++ " is too wide"
where
  range (low high : Float) : String :=
    Style.plain.write low ++ ".." ++ Style.plain.write high

end ClosureCalc
