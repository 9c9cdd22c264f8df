/-
Tokens.

* `Symbol`, `Keyword`: the fixed spellings.
* `Token.Kind`: what a token is, with the payload of names, numbers and
  characters that begin no token.
* `Token.Kind.describe` is how a message refers to a token, `Token.Kind.name`
  and `Token.Kind.payload` are what a listing of tokens shows.
-/
import ClosureCalc.Position
import ClosureCalc.Decimal.Style

namespace ClosureCalc

/-- Punctuation and operators. -/
inductive Symbol where
  | leftParen | rightParen | leftBrace | rightBrace
  | bar | comma | equal | semicolon
  | plus | minus | star | doubleStar | slash | doubleSlash
deriving DecidableEq, Inhabited, Repr

namespace Symbol

/-- The characters of a symbol. -/
def spelling : Symbol → List Char
  | leftParen => ['(']
  | rightParen => [')']
  | leftBrace => ['\x7b']
  | rightBrace => ['\x7d']
  | bar => ['|']
  | comma => [',']
  | equal => ['=']
  | semicolon => [';']
  | plus => ['+']
  | minus => ['-']
  | star => ['*']
  | doubleStar => ['*', '*']
  | slash => ['/']
  | doubleSlash => ['/', '/']

/-- All symbols, the longer ones first. -/
def all : List Symbol :=
  [doubleStar, doubleSlash, leftParen, rightParen, leftBrace, rightBrace,
    bar, comma, equal, semicolon, plus, minus, star, slash]

theorem mem_all (s : Symbol) : s ∈ all := by
  cases s <;> decide

theorem length_spelling_pos (s : Symbol) : 0 < s.spelling.length := by
  cases s <;> decide

/-- The name of a symbol in a listing. -/
def name : Symbol → String
  | leftParen => "LeftParen"
  | rightParen => "RightParen"
  | leftBrace => "LeftBrace"
  | rightBrace => "RightBrace"
  | bar => "Pipe"
  | comma => "Comma"
  | equal => "Equal"
  | semicolon => "Semicolon"
  | plus => "Plus"
  | minus => "Minus"
  | star => "Star"
  | doubleStar => "StarStar"
  | slash => "Slash"
  | doubleSlash => "SlashSlash"

end Symbol

/-- The words that cannot be names. -/
inductive Keyword where
  | var | ret | func
deriving DecidableEq, Inhabited, Repr

namespace Keyword

/-- The characters of a keyword. -/
def spelling : Keyword → List Char
  | var => ['v', 'a', 'r']
  | ret => ['r', 'e', 't', 'u', 'r', 'n']
  | func => ['f', 'u', 'n', 'c']

/-- The name of a keyword in a listing. -/
def name : Keyword → String
  | var => "Var"
  | ret => "Return"
  | func => "Func"

/-- The keyword spelled by a word, if there is one. -/
def ofWord? (word : List Char) : Option Keyword :=
  if word = var.spelling then some var
  else if word = ret.spelling then some ret
  else if word = func.spelling then some func
  else none

@[simp]
theorem ofWord?_spelling (k : Keyword) : ofWord? k.spelling = some k := by
  cases k <;> rfl

end Keyword

namespace Token

/-- What a token is. A character that begins no token is a token of its own,
so that reading can go on behind it. -/
inductive Kind where
  | symbol (s : Symbol)
  | keyword (k : Keyword)
  | identifier (name : String)
  | number (value : Float)
  | unexpected (c : Char)
  | endOfInput
deriving DecidableEq, Inhabited

namespace Kind

/-- The name of the kind in a listing. -/
def name : Kind → String
  | symbol s => s.name
  | keyword k => k.name
  | identifier _ => "Identifier"
  | number _ => "Number"
  | unexpected _ => "Error"
  | endOfInput => "EOF"

/-- The text that a name, a number or an unexpected character carries. -/
def payload : Kind → Option String
  | identifier name => some name
  | number value => some (Style.plain.write value)
  | unexpected c => some (String.singleton c)
  | _ => none

/-- Whether the kind is a keyword. -/
def isKeyword : Kind → Bool
  | keyword _ => true
  | _ => false

/-- How a message refers to a token of this kind. -/
def describe : Kind → String
  | symbol s => "'" ++ String.ofList s.spelling ++ "'"
  | keyword k => "'" ++ String.ofList k.spelling ++ "'"
  | identifier name => "identifier '" ++ name ++ "'"
  | number value => "number " ++ Style.plain.write value
  | unexpected c => "unexpected character '" ++ String.singleton c ++ "'"
  | endOfInput => "end of input"

end Kind

end Token

/-- A token and the place where it begins. -/
structure Token where
  kind : Token.Kind
  pos : Position
deriving DecidableEq, Inhabited

end ClosureCalc
