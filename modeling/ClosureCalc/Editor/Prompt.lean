/-
The texts in front of a line that is being typed.

* `Prompt`: the fixed texts; `Prompt.standard` gives them.
* `searchPrompt`: the text while the history is searched.
-/
namespace ClosureCalc

/-- The texts around an input line: left and right of it, directly in front of
it, and in front of the lines that continue it. -/
structure Prompt where
  left : String
  right : String
  indicator : String
  continuation : String
deriving DecidableEq, Inhabited, Repr

/-- The texts in use. -/
def Prompt.standard : Prompt := ⟨"slate", "", "❯ ", "  ... "⟩

/-- The text while the history is searched for a term, which was found or
not. -/
def searchPrompt (found : Bool) (term : String) : String :=
  "(" ++ (if found then "" else "failing ") ++ "reverse-search: " ++ term ++ ") "

end ClosureCalc
