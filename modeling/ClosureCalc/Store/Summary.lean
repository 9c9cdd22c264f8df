/-
A frame at a glance.

* `Store.summary`: the names of a frame and its depth, in one line.
-/
import ClosureCalc.Store
import ClosureCalc.Text.Quoted

namespace ClosureCalc

/-- The names declared in a frame and the number of frames around it. -/
def Store.summary (s : Store) (f : FrameId) : String :=
  "Environment \x7b names: [" ++ ", ".intercalate ((s.names f).map quoted) ++
    "], depth: " ++ (s.depth f).repr ++ " \x7d"

end ClosureCalc
