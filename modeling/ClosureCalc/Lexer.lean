/-
The stream of tokens.

* `Cursor.scan`: one token, or one lexical error; either way the cursor moves
  behind the text that was read, so that reading can go on after an error,
  and the text becomes shorter unless its end is reached
  (`Cursor.length_rest_lt_of_scan_ok`, `Cursor.length_rest_lt_of_scan_error`).
* `Lexer`: a cursor with room for one token that was looked at but not taken.
* `Lexer.next`, `Lexer.peek`: take a token, look at a token.
* `tokenize`: all tokens of a text.
-/
import ClosureCalc.Diagnostic
import ClosureCalc.Token.Lexeme

namespace ClosureCalc

/-- Whether a fault is reported where the numeral begins; the others are
reported where reading stopped. -/
def LexFault.isAtStart : LexFault → Bool
  | invalidNumeral _ => true
  | _ => false

namespace Cursor

/-- Moves over blanks and comments. -/
def skipLayout (cur : Cursor) : Cursor := cur.advanceBy (layout false cur.rest)

/-- Reads the token in front of the cursor. At the end of the text there is a
token without characters. -/
def scan : EStateM Error Cursor Token := fun cur =>
  let begin := cur.skipLayout
  match begin.rest with
  | [] => .ok ⟨.endOfInput, begin.pos⟩ begin
  | c :: rest =>
    let lexeme := Lexeme.first c rest
    let finish := begin.advanceBy lexeme.size
    match lexeme.outcome with
    | .ok kind => .ok ⟨kind, begin.pos⟩ finish
    | .error fault =>
      .error (.lex fault (if fault.isAtStart then begin.pos else finish.pos)) finish

theorem length_rest_skipLayout_le (cur : Cursor) :
    cur.skipLayout.rest.length ≤ cur.rest.length := by
  simp [skipLayout]

/-- Reading a lexeme shortens the text. -/
theorem length_rest_lexeme_lt {cur : Cursor} {c : Char} {rest : List Char}
    (h : cur.skipLayout.rest = c :: rest) :
    (cur.skipLayout.advanceBy (Lexeme.first c rest).size).rest.length < cur.rest.length := by
  have hle := cur.length_rest_skipLayout_le
  have hpos := Lexeme.size_first_pos c rest
  rw [rest_advanceBy, List.length_drop]
  rw [h, List.length_cons] at *
  omega

/-- Reading a token other than the last one shortens the text. -/
theorem length_rest_lt_of_scan_ok {cur cur' : Cursor} {tok : Token}
    (h : cur.scan = .ok tok cur') (hk : tok.kind ≠ .endOfInput) :
    cur'.rest.length < cur.rest.length := by
  simp only [scan] at h
  split at h
  · cases h
    exact absurd rfl hk
  · rename_i c rest hr
    split at h
    · cases h
      exact length_rest_lexeme_lt hr
    · cases h

/-- A lexical error takes the text that it is about. -/
theorem length_rest_lt_of_scan_error {cur cur' : Cursor} {e : Error}
    (h : cur.scan = .error e cur') : cur'.rest.length < cur.rest.length := by
  simp only [scan] at h
  split at h
  · cases h
  · rename_i c rest hr
    split at h
    · cases h
    · cases h
      exact length_rest_lexeme_lt hr

end Cursor

/-- A stream of tokens with one token of lookahead. -/
structure Lexer where
  cursor : Cursor
  peeked : Option Token
deriving DecidableEq, Inhabited

namespace Lexer

/-- The stream of the tokens of a text. -/
def ofString (source : String) : Lexer := ⟨Cursor.ofString source, none⟩

/-- How far the text has been read, a token that was looked at included. -/
def pos (lx : Lexer) : Position := lx.cursor.pos

/-- Takes the next token. -/
def next : EStateM Error Lexer Token := fun lx =>
  match lx.peeked with
  | some tok => .ok tok ⟨lx.cursor, none⟩
  | none =>
    match lx.cursor.scan with
    | .ok tok cur => .ok tok ⟨cur, none⟩
    | .error e cur => .error e ⟨cur, none⟩

/-- Looks at the next token without taking it. An error is not kept: its text
has been read. -/
def peek : EStateM Error Lexer Token := fun lx =>
  match lx.peeked with
  | some tok => .ok tok lx
  | none =>
    match lx.cursor.scan with
    | .ok tok cur => .ok tok ⟨cur, some tok⟩
    | .error e cur => .error e ⟨cur, none⟩

end Lexer

/-- The first `n` tokens from the cursor on, ending with the one at the end of
the text. -/
def Cursor.tokens : Nat → Cursor → Except Error (List Token)
  | 0, cur => .error (.internal cur.pos)
  | n + 1, cur =>
    match cur.scan with
    | .error e _ => .error e
    | .ok tok cur' =>
      if tok.kind = .endOfInput then .ok [tok]
      else (Cursor.tokens n cur').map (tok :: ·)

/-- All tokens of a text, up to and including the one at its end, or the first
lexical error. Every token but the last has a character of its own, which
bounds their number. -/
def tokenize (source : String) : Except Error (List Token) :=
  (Cursor.ofString source).tokens (source.length + 1)

end ClosureCalc
