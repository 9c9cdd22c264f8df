/-
Programs as trees.

* `Expr`: expressions, each with its place.
* `Stmt`: statements, each with its place; braces hold lists of statements and
  have a place of their own.
* `Program`: the statements of one source text.
-/
import ClosureCalc.Operator

namespace ClosureCalc

/-- Expressions. -/
inductive Expr where
  | number (pos : Position) (value : Float)
  | identifier (pos : Position) (name : String)
  | unary (pos : Position) (op : UnaryOp) (target : Expr)
  | binary (pos : Position) (op : BinaryOp) (left right : Expr)
  | call (pos : Position) (callee : Expr) (args : List Expr)
deriving Inhabited

/-- The place of an expression. -/
def Expr.pos : Expr → Position
  | number p _ => p
  | identifier p _ => p
  | unary p _ _ => p
  | binary p _ _ _ => p
  | call p _ _ => p

/-- Statements. The list in the braces of a function or a block has the place
of its brace. -/
inductive Stmt where
  | var (pos : Position) (name : String) (init : Option Expr)
  | ret (pos : Position) (value : Option Expr)
  | func (pos : Position) (name : String) (params : List String)
      (bodyPos : Position) (body : List Stmt)
  | block (pos : Position) (bodyPos : Position) (body : List Stmt)
  | expr (pos : Position) (e : Expr)
deriving Inhabited

/-- The place of a statement. -/
def Stmt.pos : Stmt → Position
  | var p _ _ => p
  | ret p _ => p
  | func p _ _ _ _ => p
  | block p _ _ => p
  | expr p _ => p

/-- The statements of a source text, and the place from which on it was
read. -/
structure Program where
  pos : Position
  body : List Stmt
deriving Inhabited

end ClosureCalc
