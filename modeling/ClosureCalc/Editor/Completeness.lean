/-
Whether a text that is being typed is complete.

A text waits for more while brackets are open, while a bar has no partner, or
while its last character outside comments asks for an operand. A closing
bracket without its opening one ends the wait at once: nothing typed behind it
can help.

* `Balance`: what has been counted so far.
* `Balance.read`, `Balance.readAll`: the count after one character, and after
  a text with its comments.
* `isComplete`: the verdict.
-/
import ClosureCalc.Text.WhiteSpace
import ClosureCalc.Token.Lexeme

namespace ClosureCalc

/-- The two kinds of brackets. -/
inductive Bracket where
  | paren | brace
deriving DecidableEq, Inhabited, Repr

namespace Bracket

/-- The bracket that a character opens. -/
def opening? (c : Char) : Option Bracket :=
  if c = '(' then some paren else if c = '\x7b' then some brace else none

/-- The bracket that a character closes. -/
def closing? (c : Char) : Option Bracket :=
  if c = ')' then some paren else if c = '\x7d' then some brace else none

end Bracket

/-- The open brackets, innermost first, the number of bars and the last visible
character. -/
structure Balance where
  opened : List Bracket
  bars : Nat
  last : Option Char
deriving DecidableEq, Inhabited, Repr

namespace Balance

/-- Nothing read. -/
def zero : Balance := ⟨[], 0, none⟩

/-- The brackets that are open behind a character; none if it closes one that
is not the innermost. -/
def brackets (b : Balance) (c : Char) : Option (List Bracket) :=
  match Bracket.opening? c, Bracket.closing? c with
  | some k, _ => some (k :: b.opened)
  | none, some k => if b.opened.head? = some k then some b.opened.tail else none
  | none, none => some b.opened

/-- The balance behind a character outside comments. -/
def read (b : Balance) (c : Char) : Option Balance :=
  (b.brackets c).map fun opened =>
    ⟨opened, if c = '|' then b.bars + 1 else b.bars,
      if isWhiteSpace c then b.last else some c⟩

/-- The balance behind a text that begins inside a comment or not. -/
def readAll (inComment : Bool) : List Char → Balance → Option Balance
  | [], b => some b
  | c :: rest, b =>
    if c == '\n' || c == '\r' then readAll false rest b
    else if inComment || c == commentMark then readAll true rest b
    else (b.read c).bind (readAll false rest)

/-- Whether a character asks for an operand behind it. -/
def isDangling (c : Char) : Bool :=
  c == '+' || c == '-' || c == '*' || c == '/' || c == '=' || c == ','

/-- Whether nothing is open. -/
def isSettled (b : Balance) : Bool :=
  b.opened.isEmpty && b.bars % 2 == 0 && !b.last.any isDangling

end Balance

/-- Whether a text can be handed over as it is. -/
def isComplete (text : String) : Bool :=
  isBlankText text ||
    match Balance.readAll false text.toList Balance.zero with
    | none => true
    | some b => b.isSettled

end ClosureCalc
