/-
Colours for a line that is being typed.

* `Colour`: the colours in use; `Colour.ofKind` gives the one for a token.
* `highlight`: the line cut into coloured parts, a part for each token and for
  each stretch of blanks and comments before one. From a malformed numeral on
  the line is left plain.
-/
import ClosureCalc.Token.Lexeme

namespace ClosureCalc

/-- The colours in use. -/
inductive Colour where
  | lightBlue | yellow | white | darkGray | red
deriving DecidableEq, Inhabited, Repr

namespace Colour

/-- The colour of a token. -/
def ofKind : Token.Kind → Colour
  | .keyword _ => lightBlue
  | .number _ => yellow
  | .identifier _ => white
  | .unexpected _ => red
  | .symbol _ => darkGray
  | .endOfInput => darkGray

end Colour

/-- A stretch of text in one colour. -/
structure Part where
  colour : Colour
  text : String
deriving DecidableEq, Inhabited, Repr

namespace Part

/-- Plain text; no part at all if there is none. -/
def plain : List Char → List Part
  | [] => []
  | text => [⟨.white, String.ofList text⟩]

/-- The parts of a text, at most `n` tokens of it. -/
def ofText : Nat → List Char → List Part
  | 0, text => plain text
  | n + 1, text =>
    let gap := layout false text
    match text.drop gap with
    | [] => plain text
    | c :: rest =>
      let lexeme := Lexeme.first c rest
      match lexeme.outcome with
      | .error _ => plain text
      | .ok kind =>
        plain (text.take gap) ++
          ⟨Colour.ofKind kind, String.ofList ((c :: rest).take lexeme.size)⟩ ::
            ofText n ((c :: rest).drop lexeme.size)

end Part

/-- The coloured parts of a line. -/
def highlight (line : String) : List Part := Part.ofText line.length line.toList

end ClosureCalc
