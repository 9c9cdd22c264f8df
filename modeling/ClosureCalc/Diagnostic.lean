/-
How errors are shown.

* `Excerpt.line`: the line of a source around a byte offset. The offset may
  lie beyond the end or inside a character; it is moved back to the nearest
  boundary.
* `Diagnostic`: the class, the wording and the place of an error.
* `Diagnostic.render`: the wording, the source line and a caret below the
  column.
* `Diagnostic.ofError`: what is shown of an error.
-/
import ClosureCalc.Error

namespace ClosureCalc

namespace Excerpt

/-- The characters that lie wholly within the first `n` bytes, and the rest. -/
def splitAtByte : Nat → List Char → List Char × List Char
  | _, [] => ([], [])
  | n, c :: rest =>
    if c.utf8Size ≤ n then
      let (before, behind) := splitAtByte (n - c.utf8Size) rest
      (c :: before, behind)
    else ([], c :: rest)

/-- Splitting loses nothing. -/
theorem splitAtByte_append (n : Nat) (text : List Char) :
    (splitAtByte n text).1 ++ (splitAtByte n text).2 = text := by
  induction text generalizing n with
  | nil => rfl
  | cons c rest ih =>
    unfold splitAtByte
    split
    · simp [ih]
    · rfl

/-- Whether a character separates lines. -/
def isBreak (c : Char) : Bool := c == '\n' || c == '\r'

/-- What stands on the same line: all up to the first break. -/
def untilBreak (text : List Char) : List Char := text.takeWhile (!isBreak ·)

/-- The line around the given byte offset. -/
def line (offset : Nat) (source : String) : String :=
  let (before, behind) := splitAtByte offset source.toList
  String.ofList ((untilBreak before.reverse).reverse ++ untilBreak behind)

/-- A message with the source line and a caret below the column. -/
def render (message : String) (pos : Position) (source : String) : String :=
  "[ERROR] " ++ message ++ ":\n" ++ line pos.offset source ++ "\n" ++
    String.ofList (List.replicate (pos.column - 1) ' ') ++ "^ On line " ++
    pos.line.repr ++ ", column " ++ pos.column.repr ++ "\n"

end Excerpt

/-- What is shown of an error. -/
structure Diagnostic where
  kind : ErrorKind
  message : String
  pos? : Option Position
deriving DecidableEq, Inhabited, Repr

namespace Diagnostic

/-- A message of the given class at a place. -/
def located (kind : ErrorKind) (message : String) (pos : Position) : Diagnostic :=
  ⟨kind, message, some pos⟩

/-- Too few arguments. -/
def arity (required supplied : Nat) (pos : Position) : Diagnostic :=
  located .arity
    ("Expected at least " ++ required.repr ++ " arguments but got " ++ supplied.repr) pos

/-- A failure of the program itself. -/
def internal (reason : String) (pos : Position) : Diagnostic :=
  located .internal ("internal error: " ++ reason) pos

/-- A failure to read a file, which has no place. -/
def io (reason : String) : Diagnostic := ⟨.io, "io error: " ++ reason, none⟩

/-- What is shown of an error. -/
def ofError : Error → Diagnostic
  | .io fault => io fault.message
  | .lex fault p => located .lex fault.message p
  | .parse fault p => located .parse fault.message p
  | .name fault p => located .name fault.message p
  | .arity required supplied p => arity required supplied p
  | .type fault p => located .type fault.message p
  | .internal p => internal "nesting too deep" p

/-- The text of a diagnostic against a source; without a place it is the bare
message. -/
def render (d : Diagnostic) (source : String) : String :=
  match d.pos? with
  | some p => Excerpt.render d.message p source
  | none => d.message

end Diagnostic

namespace Error

/-- The wording of an error. -/
def message (e : Error) : String := (Diagnostic.ofError e).message

/-- The text of an error against a source. -/
def render (e : Error) (source : String) : String :=
  (Diagnostic.ofError e).render source

end Error

end ClosureCalc
