/-
From tokens to programs.

The parser reads the token stream once, with one token of lookahead. All
binary operators share one precedence and group from the left; a prefix
operator binds tighter than each of them; a callee takes at most one argument
list.

* `Parser.expression`, `Parser.program`: what can be read from a stream. Both
  leave the stream behind what was read, also when they fail.
* `parse`: the program of a source text.

Nested constructs and repetitions draw on a budget that exceeds the number of
tokens left; each of them takes a token first, so that the budget lasts.
-/
import ClosureCalc.Lexer
import ClosureCalc.Program

namespace ClosureCalc

/-- Readers of the token stream. -/
abbrev Parser := EStateM Error Lexer

namespace Parser

/-- The way out when the budget is spent. -/
def outOfBudget {α : Type} : Parser α := do
  throw (.internal (← get).pos)

/-- Refuses a token. -/
def refuse {α : Type} (fault : ParseFault) (tok : Token) : Parser α :=
  throw (.parse fault tok.pos)

/-- Whether the next token has the given kind. -/
def isNext (kind : Token.Kind) : Parser Bool := do
  return decide ((← Lexer.peek).kind = kind)

/-- Takes a token that must have the given kind. -/
def expect (kind : Token.Kind) : Parser Token := do
  let tok ← Lexer.next
  if tok.kind = kind then return tok
  else refuse (.expectedKind kind tok.kind) tok

/-- Takes a name. -/
def expectName (role : NameRole) : Parser String := do
  let tok ← Lexer.next
  match tok.kind with
  | .identifier name => return name
  | kind => refuse (.expectedName role kind) tok

/-- The rest of a parenthesised list: items with commas between them, up to
and including the closing parenthesis. -/
def items {α : Type} (item : Parser α) (fault : Token.Kind → ParseFault) :
    Nat → Parser (List α)
  | 0 => outOfBudget
  | n + 1 => do
    let first ← item
    let tok ← Lexer.next
    match tok.kind with
    | .symbol .comma => return first :: (← items item fault n)
    | .symbol .rightParen => return [first]
    | kind => refuse (fault kind) tok

/-- The rest of a parenthesised list that may be empty. -/
def itemsOrNone {α : Type} (item : Parser α) (fault : Token.Kind → ParseFault)
    (n : Nat) : Parser (List α) := do
  if ← isNext (.symbol .rightParen) then
    let _ ← Lexer.next
    return []
  else items item fault n

/-! ### Expressions -/

/-- A name, a number or an expression in parentheses. -/
def primary (expr : Parser Expr) : Parser Expr := do
  let tok ← Lexer.next
  match tok.kind with
  | .identifier name => return .identifier tok.pos name
  | .number value => return .number tok.pos value
  | .symbol .leftParen =>
    let inner ← expr
    let _ ← expect (.symbol .rightParen)
    return inner
  | .unexpected c => refuse (.unexpectedChar c) tok
  | kind => refuse (.expectedExpression kind) tok

/-- A primary expression with at most one argument list. A call stands where its
callee does. -/
def application (expr : Parser Expr) (n : Nat) : Parser Expr := do
  let callee ← primary expr
  if ← isNext (.symbol .leftParen) then
    let _ ← Lexer.next
    return .call callee.pos callee (← itemsOrNone expr .afterArgument n)
  else return callee

/-- The prefix operator that a token begins. -/
def unaryOp? : Token.Kind → Option UnaryOp
  | .symbol s => UnaryOp.ofSymbol? s
  | _ => none

/-- The infix operator that a token denotes. -/
def binaryOp? : Token.Kind → Option BinaryOp
  | .symbol s => BinaryOp.ofSymbol? s
  | _ => none

/-- An application behind any number of prefix operators, or an expression
between bars. -/
def operand (expr : Parser Expr) (n : Nat) : Nat → Parser Expr
  | 0 => outOfBudget
  | m + 1 => do
    match unaryOp? (← Lexer.peek).kind with
    | none => application expr n
    | some .absolute =>
      let tok ← Lexer.next
      let inner ← expr
      let _ ← expect (.symbol .bar)
      return .unary tok.pos .absolute inner
    | some op =>
      let tok ← Lexer.next
      return .unary tok.pos op (← operand expr n m)

/-- The rest of a row of operands, grouped from the left. A binary expression
stands where its left operand does. -/
def chain (unit : Parser Expr) : Nat → Expr → Parser Expr
  | 0, _ => outOfBudget
  | n + 1, left => do
    match binaryOp? (← Lexer.peek).kind with
    | none => return left
    | some op =>
      let _ ← Lexer.next
      let right ← unit
      chain unit n (.binary left.pos op left right)

/-- An expression, within a budget. -/
def expressionWithin : Nat → Parser Expr
  | 0 => outOfBudget
  | n + 1 => do
    let unit := operand (expressionWithin n) (n + 1) (n + 1)
    chain unit (n + 1) (← unit)

/-! ### Statements -/

/-- Takes semicolons. -/
def separators : Nat → Parser Unit
  | 0 => outOfBudget
  | n + 1 => do
    if ← isNext (.symbol .semicolon) then
      let _ ← Lexer.next
      separators n
    else return

/-- The statements of a block behind its opening brace, up to and including
the closing one. -/
def blockRest (stmt : Parser Stmt) : Nat → Parser (List Stmt)
  | 0 => outOfBudget
  | n + 1 => do
    separators (n + 1)
    let tok ← Lexer.peek
    if tok.kind = .endOfInput then refuse .unclosedBlock tok
    else if tok.kind = .symbol .rightBrace then
      let _ ← Lexer.next
      return []
    else
      let first ← stmt
      return first :: (← blockRest stmt n)

/-- A block in braces, with the place of its opening brace. -/
def block (stmt : Parser Stmt) (n : Nat) : Parser (Position × List Stmt) := do
  let tok ← expect (.symbol .leftBrace)
  return (tok.pos, ← blockRest stmt n)

/-- A declaration of a variable. -/
def varStmt (expr : Parser Expr) : Parser Stmt := do
  let tok ← expect (.keyword .var)
  let name ← expectName .ofVariable
  if ← isNext (.symbol .equal) then
    let _ ← Lexer.next
    return .var tok.pos name (some (← expr))
  else return .var tok.pos name none

/-- Whether a token cannot begin the value of a `return`. -/
def endsReturn : Token.Kind → Bool
  | .symbol .rightBrace => true
  | .symbol .semicolon => true
  | .endOfInput => true
  | _ => false

/-- A `return`. Its value must begin on the same line. -/
def returnStmt (expr : Parser Expr) : Parser Stmt := do
  let tok ← expect (.keyword .ret)
  let next ← Lexer.peek
  if next.pos.line = tok.pos.line ∧ !endsReturn next.kind then
    return .ret tok.pos (some (← expr))
  else return .ret tok.pos none

/-- A declaration of a function. -/
def funcStmt (stmt : Parser Stmt) (n : Nat) : Parser Stmt := do
  let tok ← expect (.keyword .func)
  let name ← expectName .ofFunction
  let _ ← expect (.symbol .leftParen)
  let params ← itemsOrNone (expectName .ofParameter) .afterParameter n
  let (bodyPos, body) ← block stmt n
  return .func tok.pos name params bodyPos body

/-- A statement, within a budget. -/
def statementWithin : Nat → Parser Stmt
  | 0 => outOfBudget
  | n + 1 => do
    match (← Lexer.peek).kind with
    | .keyword .var => varStmt (expressionWithin (n + 1))
    | .keyword .ret => returnStmt (expressionWithin (n + 1))
    | .keyword .func => funcStmt (statementWithin n) (n + 1)
    | .symbol .leftBrace =>
      let (pos, body) ← block (statementWithin n) (n + 1)
      return .block pos pos body
    | _ =>
      let e ← expressionWithin (n + 1)
      return .expr e.pos e

/-- Statements up to the end of the text. -/
def statements (stmt : Parser Stmt) : Nat → Parser (List Stmt)
  | 0 => outOfBudget
  | n + 1 => do
    separators (n + 1)
    if ← isNext .endOfInput then return []
    else
      let first ← stmt
      return first :: (← statements stmt n)

/-! ### Readers with their budget -/

/-- A number above the number of tokens left in a stream. -/
def budget (lx : Lexer) : Nat := lx.cursor.rest.length + 2

/-- One expression. -/
def expression : Parser Expr := do
  expressionWithin (budget (← get))

/-- One statement. -/
def statement : Parser Stmt := do
  statementWithin (budget (← get))

/-- All that is left of the stream, as a program. -/
def program : Parser Program := do
  let lx ← get
  return ⟨lx.pos, ← statements (statementWithin (budget lx)) (budget lx)⟩

end Parser

/-- The value of a reader on a text. -/
def Parser.runOn {α : Type} (p : Parser α) (source : String) : Except Error α :=
  match p.run (Lexer.ofString source) with
  | .ok a _ => .ok a
  | .error e _ => .error e

/-- The program of a source text, or the first error in it. -/
def parse (source : String) : Except Error Program :=
  Parser.program.runOn source

end ClosureCalc
