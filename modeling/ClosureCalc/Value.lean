/-
Values of a running program.

* `Declaration`: the part of a `func` statement that a function value needs,
  with the unit and the place it was declared at, which identify it.
* `Value`: numbers, functions and the undefined value. Frames of the store are
  referred to by number.
* `Value.text`: how a value is printed; `Value.agrees`: when two values count
  as equal.
-/
import ClosureCalc.Program
import ClosureCalc.Builtin

namespace ClosureCalc

/-- The number of a frame in the store. -/
abbrev FrameId := Nat

/-- The number of a slot in the store. -/
abbrev SlotId := Nat

/-- A declared function. The unit is the number of the program run it belongs
to, so that unit and place tell two declarations apart. -/
structure Declaration where
  unit : Nat
  pos : Position
  name : String
  params : List String
  body : List Stmt
deriving Inhabited

/-- Values. A function carries the frame it was declared in, a built-in
function the root frame it was made for. -/
inductive Value where
  | number (n : Number)
  | function (decl : Declaration) (closure : FrameId)
  | builtin (b : Builtin) (home : FrameId)
  | undefined
deriving Inhabited

namespace Value

/-- What a value is. -/
def kind : Value → ValueKind
  | number _ => .number
  | function _ _ => .function
  | builtin _ _ => .function
  | undefined => .undefined

/-- The printed form. A zero is printed without its sign. -/
def text : Value → String
  | number n => if n.toFloat == 0 then "0" else Style.plain.write n.toFloat
  | function decl _ => "func " ++ decl.name ++ "(" ++ ", ".intercalate decl.params ++ ")"
  | builtin b _ => "<built-in " ++ b.name ++ ">"
  | undefined => "undefined"

/-- Numbers closer than this count as equal. -/
def tolerance : Float := 1e-10

/-- Equality of values. Numbers agree within the tolerance; functions only
with themselves. -/
def agrees : Value → Value → Bool
  | number a, number b =>
    a.toFloat == b.toFloat || decide ((a.toFloat - b.toFloat).abs < tolerance)
  | function d f, function d' f' => d.unit == d'.unit && d.pos == d'.pos && f == f'
  | builtin b f, builtin b' f' => b == b' && f == f'
  | undefined, undefined => true
  | _, _ => false

end Value

end ClosureCalc
