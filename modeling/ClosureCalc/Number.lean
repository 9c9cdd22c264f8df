/-
The numbers of a running program.

A number is a floating-point value. What is no number has two forms: the
value that calculations give, and the signal, which no calculation gives and
which only enters from outside. A signal stays one while it is handed on or
its sign changes; a calculation turns it into the other form.

* `Number`: a value or the signal.
* `Number.toFloat`: the operand of a calculation.
* `Number.ofBits`: the number with a given pattern of bits.
* `Number.onSign`: what changes nothing but a sign.
-/
namespace ClosureCalc

/-- Numbers of a running program. -/
inductive Number where
  | ofFloat (x : Float)
  | signal
deriving DecidableEq, Inhabited

namespace Number

instance : Coe Float Number := ⟨ofFloat⟩

/-- The result of a calculation that has none. -/
def invalid : Float := 0 / 0

/-- The number as the operand of a calculation. -/
def toFloat : Number → Float
  | ofFloat x => x
  | signal => invalid

@[simp]
theorem toFloat_ofFloat (x : Float) : (ofFloat x).toFloat = x := rfl

/-- Whether the number is the signal. -/
def isSignal : Number → Bool
  | ofFloat _ => false
  | signal => true

/-- Whether the number is no number, in either form. -/
def isNaN (n : Number) : Bool := n.toFloat.isNaN

/-- The number with a pattern of 64 bits. A signal has the exponent of what is
no number and the first bit of the fraction clear. -/
def ofBits (bits : UInt64) : Number :=
  let size := bits.toNat % 0x8000000000000000
  if 0x7ff0000000000000 < size ∧ size < 0x7ff8000000000000 then signal
  else ofFloat (Float.ofBits bits)

/-- Applies an operation that changes nothing but a sign. -/
def onSign (f : Float → Float) : Number → Number
  | ofFloat x => ofFloat (f x)
  | signal => signal

end Number

end ClosureCalc
