/-
A generator of random numbers.

* `Generator`: its state, one word.
* `Generator.next`: the next word. The state walks through all words by a
  fixed odd step and is mixed by shifts and multiplications.
* `Generator.unit`: a number from zero inclusive to one exclusive.
* `Generator.between`: a number from a lower bound inclusive to an upper bound
  exclusive. A zero that is drawn has no sign.
-/
namespace ClosureCalc

/-- The state of a generator. -/
structure Generator where
  state : UInt64
deriving DecidableEq, Inhabited, Repr

namespace Generator

/-- The next word and the next state. -/
def next (g : Generator) : UInt64 × Generator :=
  let state := g.state + 0x9e3779b97f4a7c15
  let a := (state ^^^ (state >>> 30)) * 0xbf58476d1ce4e5b9
  let b := (a ^^^ (a >>> 27)) * 0x94d049bb133111eb
  (b ^^^ (b >>> 31), ⟨state⟩)

/-- A number `k / 2 ^ 53` with `k` below `2 ^ 53`. -/
def unit (g : Generator) : Float × Generator :=
  let (word, g) := g.next
  ((word >>> 11).toFloat / 9007199254740992, g)

/-- A number `k / 2 ^ 52` with `k` below `2 ^ 52`. -/
def share (g : Generator) : Float × Generator :=
  let (word, g) := g.next
  ((word >>> 12).toFloat / 4503599627370496, g)

/-- A number from `low` inclusive to `high` exclusive: a share of the distance
above `low`. Where rounding would reach the upper bound, the share is zero. -/
def between (low high : Float) (g : Generator) : Float × Generator :=
  let (share, g) := g.share
  let drawn := low + (high - low) * share
  (if low ≤ drawn ∧ drawn < high then drawn else low + 0, g)

end Generator

end ClosureCalc
