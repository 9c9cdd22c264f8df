/-
The shape of tokens, without their places.

* `layout`: how many characters of blanks and comments a text begins with.
* `Lexeme`: the kind of the token a text begins with, or the fault in it,
  and the number of characters that were read.
* `Lexeme.first`: the lexeme at the beginning of a text. It has at least one
  character (`Lexeme.size_first_pos`) and lies within the text
  (`Lexeme.size_first_le`).
-/
import ClosureCalc.Token.Numeral

namespace ClosureCalc

/-- Whether a character separates tokens. -/
def isBlank (c : Char) : Bool := c == ' ' || c == '\t' || c == '\r' || c == '\n'

/-- The character that begins a comment. -/
def commentMark : Char := '#'

/-- The number of characters of blanks and comments at the beginning of a
text that itself begins inside a comment or not. A comment ends in front of
the next line break. -/
def layout (inComment : Bool) : List Char → Nat
  | [] => 0
  | c :: rest =>
    if c == '\n' || c == '\r' then layout false rest + 1
    else if inComment || c == commentMark then layout true rest + 1
    else if isBlank c then layout false rest + 1
    else 0

/-- Layout lies within its text. -/
theorem layout_le_length (inComment : Bool) (text : List Char) :
    layout inComment text ≤ text.length := by
  induction text generalizing inComment with
  | nil => exact Nat.le_refl 0
  | cons c rest ih =>
    have hin := Nat.succ_le_succ (ih true)
    have hout := Nat.succ_le_succ (ih false)
    unfold layout
    split
    · exact hout
    · split
      · exact hin
      · split
        · exact hout
        · exact Nat.zero_le _

/-- Behind the layout there is no more of it. -/
theorem layout_drop_layout (inComment : Bool) (text : List Char) :
    layout false (text.drop (layout inComment text)) = 0 := by
  induction text generalizing inComment with
  | nil => rfl
  | cons c rest ih =>
    by_cases hb : (c == '\n' || c == '\r') = true
    · simpa [layout, hb] using ih false
    · by_cases hc : (inComment || c == commentMark) = true
      · simpa [layout, hb, hc] using ih true
      · by_cases hs : isBlank c = true
        · simpa [layout, hb, hc, hs] using ih false
        · rw [Bool.or_eq_true, not_or] at hc
          simp [layout, hb, hc, hs]

/-- Whether a character can begin a name. -/
def isNameStart (c : Char) : Bool := c.isAlpha || c == '_' || c == '$'

/-- Whether a character can continue a name. -/
def isNamePart (c : Char) : Bool := isNameStart c || c.isDigit

/-- The symbol at the beginning of a text; the longer of two wins. -/
def Symbol.first? (text : List Char) : Option Symbol :=
  all.find? (·.spelling.isPrefixOf text)

/-- A symbol is read only where it is spelled. -/
theorem Symbol.spelling_prefix {text : List Char} {s : Symbol} (h : first? text = some s) :
    s.spelling <+: text := by
  have hs := List.find?_some (show all.find? _ = some s from h)
  exact List.isPrefixOf_iff_prefix.1 hs

/-- The beginning of a text read as a token: its kind or its fault, and the
number of characters read. -/
structure Lexeme where
  size : Nat
  outcome : Except LexFault Token.Kind

namespace Lexeme

/-- The kind of a word: a keyword, else a name. -/
def ofWord (word : List Char) : Token.Kind :=
  match Keyword.ofWord? word with
  | some k => .keyword k
  | none => .identifier (String.ofList word)

/-- The word at the beginning of a text. -/
def word (text : List Char) : Lexeme :=
  let letters := text.takeWhile isNamePart
  ⟨letters.length, .ok (ofWord letters)⟩

/-- The numeral at the beginning of a text. -/
def numeral (text : List Char) : Lexeme :=
  let (n, outcome) := Numeral.read text
  ⟨n, outcome.map Token.Kind.number⟩

/-- The lexeme at the beginning of the text `c :: rest`, which begins with no
blank and no comment. -/
def first (c : Char) (rest : List Char) : Lexeme :=
  if c.isDigit || c == '.' then numeral (c :: rest)
  else if isNameStart c then word (c :: rest)
  else
    match Symbol.first? (c :: rest) with
    | some s => ⟨s.spelling.length, .ok (.symbol s)⟩
    | none => ⟨1, .ok (.unexpected c)⟩

@[simp]
theorem size_numeral (text : List Char) :
    (numeral text).size = (Numeral.scan .whole text).1 :=
  Numeral.size_read text

/-- A lexeme has a character of its own. -/
theorem size_first_pos (c : Char) (rest : List Char) : 0 < (first c rest).size := by
  unfold first
  split
  · rename_i h
    rw [size_numeral]
    exact Numeral.scan_whole_pos rest h
  · split
    · rename_i h
      simp [word, isNamePart, h]
    · split
      · exact Symbol.length_spelling_pos _
      · exact Nat.one_pos

/-- A lexeme lies within its text. -/
theorem size_first_le (c : Char) (rest : List Char) :
    (first c rest).size ≤ (c :: rest).length := by
  unfold first
  split
  · rw [size_numeral]
    exact Numeral.scan_le_length _ _
  · split
    · exact (List.takeWhile_sublist _).length_le
    · split
      · rename_i h
        exact (Symbol.spelling_prefix h).length_le
      · exact Nat.succ_pos _

/-- The token at the end of a text has no characters, so no lexeme is one. -/
theorem first_ne_endOfInput (c : Char) (rest : List Char) :
    (first c rest).outcome ≠ .ok .endOfInput := by
  unfold first
  split
  · unfold numeral
    generalize Numeral.read (c :: rest) = r
    obtain ⟨n, _ | value⟩ := r <;> simp [Except.map]
  · split
    · simp only [word, ofWord]
      split <;> simp
    · split <;> simp

end Lexeme

end ClosureCalc
