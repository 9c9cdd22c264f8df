/-
The operators of expressions.

* `UnaryOp`: sign, negation and the absolute value between bars.
* `BinaryOp`: the six infix operators, all of one precedence.
-/
import ClosureCalc.Number
import ClosureCalc.Token

namespace ClosureCalc

/-- Operators with one operand. -/
inductive UnaryOp where
  | identity | negate | absolute
deriving DecidableEq, Inhabited, Repr

namespace UnaryOp

/-- How a message refers to the operator. -/
def describe : UnaryOp → String
  | identity => "'+'"
  | negate => "'-'"
  | absolute => "'|...|'"

/-- The operator applied to a number. -/
def apply : UnaryOp → Number → Number
  | identity, a => a
  | negate, a => a.onSign (- ·)
  | absolute, a => a.onSign Float.abs

/-- The symbol that begins an operand with this operator. -/
def symbol : UnaryOp → Symbol
  | identity => .plus
  | negate => .minus
  | absolute => .bar

/-- The operator that a symbol begins, if it begins one. -/
def ofSymbol? : Symbol → Option UnaryOp
  | .plus => some identity
  | .minus => some negate
  | .bar => some absolute
  | _ => none

theorem ofSymbol?_eq_some_iff {s : Symbol} {op : UnaryOp} :
    ofSymbol? s = some op ↔ op.symbol = s := by
  cases s <;> cases op <;> decide

end UnaryOp

/-- Operators between two operands. -/
inductive BinaryOp where
  | add | sub | mul | div | pow | floorDiv
deriving DecidableEq, Inhabited, Repr

namespace BinaryOp

/-- The symbol of the operator. -/
def symbol : BinaryOp → Symbol
  | add => .plus
  | sub => .minus
  | mul => .star
  | div => .slash
  | pow => .doubleStar
  | floorDiv => .doubleSlash

/-- The operator that a symbol denotes between two operands. -/
def ofSymbol? : Symbol → Option BinaryOp
  | .plus => some add
  | .minus => some sub
  | .star => some mul
  | .slash => some div
  | .doubleStar => some pow
  | .doubleSlash => some floorDiv
  | _ => none

theorem ofSymbol?_eq_some_iff {s : Symbol} {op : BinaryOp} :
    ofSymbol? s = some op ↔ op.symbol = s := by
  cases s <;> cases op <;> decide

/-- The spelling of the operator. -/
def text (op : BinaryOp) : String := String.ofList op.symbol.spelling

/-- The calculation of an operator on two values. -/
def compute : BinaryOp → Float → Float → Float
  | add, a, b => a + b
  | sub, a, b => a - b
  | mul, a, b => a * b
  | div, a, b => a / b
  | pow, a, b => a.pow b
  | floorDiv, a, b => (a / b).floor

/-- The operator applied to two numbers. A signal makes the result no number,
also where a power would not depend on it. -/
def apply (op : BinaryOp) (a b : Number) : Number :=
  if a.isSignal || b.isSignal then Number.invalid
  else op.compute a.toFloat b.toFloat

end BinaryOp

end ClosureCalc
