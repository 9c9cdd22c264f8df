/-
Places in a source text.

* `Position`: a byte offset from the start together with the line and the
  column a reader would name, both counted from one.
* `Position.after`: the place behind one more character. A line feed or a
  carriage return ends a line; a carriage return directly before a line
  feed does not, so that the pair counts as one break.
* `Cursor`: the text still to be read, with the place where it begins.
-/
namespace ClosureCalc

/-- A place in a source text. The offset counts bytes of the UTF-8 encoding,
the column counts characters. -/
structure Position where
  offset : Nat
  line : Nat
  column : Nat
deriving DecidableEq, Inhabited, Repr

namespace Position

/-- The beginning of every text. -/
def start : Position := ⟨0, 1, 1⟩

/-- Whether the character `c`, followed by `next`, ends a line. -/
def endsLine (c : Char) (next : Option Char) : Bool :=
  c == '\n' || (c == '\r' && next != some '\n')

/-- The place behind the character `c` that stands at `p` and is followed by
`next`. -/
def after (p : Position) (c : Char) (next : Option Char) : Position :=
  if endsLine c next then ⟨p.offset + c.utf8Size, p.line + 1, 1⟩
  else ⟨p.offset + c.utf8Size, p.line, p.column + 1⟩

@[simp]
theorem offset_after (p : Position) (c : Char) (next : Option Char) :
    (p.after c next).offset = p.offset + c.utf8Size := by
  unfold after
  split <;> rfl

/-- The line and the column, three places wide each, the line flush right and
the column flush left. -/
def label (p : Position) : String :=
  String.ofList (p.line.repr.toList.leftpad 3 ' ') ++ ":" ++
    String.ofList (p.column.repr.toList.rightpad 3 ' ')

end Position

/-- A text that is being read: what is left of it, and where that begins. -/
structure Cursor where
  rest : List Char
  pos : Position
deriving DecidableEq, Inhabited, Repr

namespace Cursor

/-- The cursor in front of a whole text. -/
def ofString (source : String) : Cursor := ⟨source.toList, Position.start⟩

/-- Moves over one character; at the end of the text nothing moves. -/
def advance : Cursor → Cursor
  | ⟨[], p⟩ => ⟨[], p⟩
  | ⟨c :: rest, p⟩ => ⟨rest, p.after c rest.head?⟩

/-- Moves over `n` characters, or to the end if there are fewer. -/
def advanceBy : Nat → Cursor → Cursor
  | 0, cur => cur
  | n + 1, cur => advanceBy n cur.advance

@[simp]
theorem rest_advance (cur : Cursor) : cur.advance.rest = cur.rest.tail := by
  obtain ⟨_ | ⟨c, rest⟩, p⟩ := cur <;> rfl

/-- Moving drops characters and nothing else. -/
@[simp]
theorem rest_advanceBy (n : Nat) (cur : Cursor) :
    (cur.advanceBy n).rest = cur.rest.drop n := by
  induction n generalizing cur with
  | zero => rfl
  | succ n ih => rw [advanceBy, ih, rest_advance, List.drop_tail]

/-- Moving over `m + n` characters is moving over `m` and then over `n`. -/
theorem advanceBy_add (m n : Nat) (cur : Cursor) :
    cur.advanceBy (m + n) = (cur.advanceBy m).advanceBy n := by
  induction m generalizing cur with
  | zero => rw [Nat.zero_add]; rfl
  | succ m ih => rw [Nat.succ_add]; exact ih cur.advance

end Cursor

end ClosureCalc
