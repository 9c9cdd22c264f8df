/-
What can go wrong.

* `LexFault`, `ParseFault`, `NameFault`, `TypeFault`: the causes, phase by
  phase, each with its wording.
* `Error`: a cause with the place it is reported at. Only an unreadable file
  has no place.
* `Error.kind`, `Error.message`, `Error.pos?`: what is shown of an error.
-/
import ClosureCalc.Operator
import ClosureCalc.Builtin

namespace ClosureCalc

/-- Why a numeral is malformed. -/
inductive LexFault where
  | exponentTwice
  | pointInExponent
  | pointTwice
  | openExponent
  | invalidNumeral (text : String)
deriving DecidableEq, Inhabited, Repr

/-- The wording of a lexical fault. -/
def LexFault.message : LexFault → String
  | exponentTwice => "Exponent already set"
  | pointInExponent => "Exponent set, decimal cannot be used"
  | pointTwice => "Decimal already set"
  | openExponent => "Number cannot end with exponent"
  | invalidNumeral text => "Invalid number literal '" ++ text ++ "'"

/-- What a name is wanted for. -/
inductive NameRole where
  | ofVariable | ofFunction | ofParameter
deriving DecidableEq, Inhabited, Repr

/-- How a message refers to a missing name. -/
def NameRole.describe : NameRole → String
  | ofVariable => "variable name after 'var'"
  | ofFunction => "function name after 'func'"
  | ofParameter => "parameter name"

/-- Why a sequence of tokens is no program. -/
inductive ParseFault where
  | expectedKind (wanted found : Token.Kind)
  | expectedName (role : NameRole) (found : Token.Kind)
  | unclosedBlock
  | afterParameter (found : Token.Kind)
  | afterArgument (found : Token.Kind)
  | unexpectedChar (c : Char)
  | expectedExpression (found : Token.Kind)
deriving DecidableEq, Inhabited

/-- The wording of a parse fault. -/
def ParseFault.message : ParseFault → String
  | expectedKind wanted found =>
    "Expected " ++ wanted.describe ++ ", found " ++ found.describe
  | expectedName role found =>
    "Expected " ++ role.describe ++ ", found " ++ found.describe
  | unclosedBlock => "Expected '\x7d' to close block, found end of input"
  | afterParameter found =>
    "Expected ',' or ')' after parameter, found " ++ found.describe
  | afterArgument found =>
    "Expected ',' or ')' after argument, found " ++ found.describe
  | unexpectedChar c => "Unexpected character '" ++ String.singleton c ++ "'"
  | expectedExpression found => "Expected an expression, found " ++ found.describe

/-- Why a name cannot be used. -/
inductive NameFault where
  | unknown (name : String)
  | redeclared (name : String)
deriving DecidableEq, Inhabited, Repr

/-- The wording of a name fault. -/
def NameFault.message : NameFault → String
  | unknown name => "Unknown value: '" ++ name ++ "'"
  | redeclared name => "Redeclaration of '" ++ name ++ "'"

/-- Why a value cannot be used. -/
inductive TypeFault where
  | notCallable (found : ValueKind)
  | operand (op : UnaryOp) (found : ValueKind)
  | rightOperand (op : BinaryOp) (found : ValueKind)
  | leftOperand (op : BinaryOp) (found : ValueKind)
  | builtin (callee : Builtin) (complaint : Complaint)
deriving DecidableEq, Inhabited

/-- The wording of a type fault. -/
def TypeFault.message : TypeFault → String
  | notCallable found => "Cannot call a value of kind '" ++ found.name ++ "'"
  | operand op found =>
    "Unary " ++ op.describe ++ " is not supported for values of kind '" ++
      found.name ++ "'"
  | rightOperand op found =>
    "Operator '" ++ op.text ++ "' expects a number on the right, found '" ++
      found.name ++ "'"
  | leftOperand op found =>
    "Operator '" ++ op.text ++ "' is not supported for values of kind '" ++
      found.name ++ "'"
  | builtin callee complaint => callee.name ++ ": " ++ complaint.message

/-- Why a file cannot be read as a text. -/
inductive FileFault where
  | missing
  | isDirectory
  | notText
  | other (reason : String)
deriving DecidableEq, Inhabited, Repr

/-- The wording of a file fault. -/
def FileFault.message : FileFault → String
  | missing => "No such file or directory (os error 2)"
  | isDirectory => "Is a directory (os error 21)"
  | notText => "stream did not contain valid UTF-8"
  | other reason => reason

/-- The classes of errors. -/
inductive ErrorKind where
  | io | lex | parse | name | arity | type | internal
deriving DecidableEq, Inhabited, Repr

/-- An error with the place it is reported at. The kind `internal` is for a
parser that runs out of the nesting depth it was given. -/
inductive Error where
  | io (fault : FileFault)
  | lex (fault : LexFault) (pos : Position)
  | parse (fault : ParseFault) (pos : Position)
  | name (fault : NameFault) (pos : Position)
  | arity (required supplied : Nat) (pos : Position)
  | type (fault : TypeFault) (pos : Position)
  | internal (pos : Position)
deriving DecidableEq, Inhabited

namespace Error

/-- The class of an error. -/
def kind : Error → ErrorKind
  | io _ => .io
  | lex _ _ => .lex
  | parse _ _ => .parse
  | name _ _ => .name
  | arity _ _ _ => .arity
  | type _ _ => .type
  | internal _ => .internal

/-- The place of an error; an unreadable file has none. -/
def pos? : Error → Option Position
  | io _ => none
  | lex _ p => some p
  | parse _ p => some p
  | name _ p => some p
  | arity _ _ p => some p
  | type _ p => some p
  | internal p => some p

end Error

end ClosureCalc
