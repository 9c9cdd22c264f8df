/-
Programs written out as indented outlines.

* `Outline`: a tree of named records, lists and leaves.
* `Outline.lines`: its lines, each level four blanks deeper than the one
  around it and each part followed by a comma.
* `Program.outline`: the outline of a program.
-/
import ClosureCalc.Program
import ClosureCalc.Text.Quoted

namespace ClosureCalc

/-- A tree of named records. -/
inductive Outline where
  /-- A text without parts. -/
  | leaf (text : String)
  /-- A name with one part in parentheses. -/
  | wrap (name : String) (part : Outline)
  /-- A name with named parts in braces. -/
  | record (name : String) (fields : List (String × Outline))
  /-- Parts in brackets. -/
  | items (parts : List Outline)
deriving Inhabited

namespace Outline

/-- A line at a level. -/
def line (level : Nat) (text : String) : String :=
  String.ofList (List.replicate (4 * level) ' ') ++ text

mutual

/-- The lines of an outline at a level, with `lead` in front of the first line
and `tail` behind the last. -/
def lines (level : Nat) (lead tail : String) : Outline → List String
  | leaf text => [line level (lead ++ text ++ tail)]
  | wrap name part =>
    line level (lead ++ name ++ "(") ::
      lines (level + 1) "" "," part ++ [line level (")" ++ tail)]
  | record name fields =>
    line level (lead ++ name ++ " \x7b") ::
      fieldLines (level + 1) fields ++ [line level ("\x7d" ++ tail)]
  | items parts =>
    if parts.isEmpty then [line level (lead ++ "[]" ++ tail)]
    else
      line level (lead ++ "[") ::
        partLines (level + 1) parts ++ [line level ("]" ++ tail)]

/-- The lines of named parts. -/
def fieldLines (level : Nat) : List (String × Outline) → List String
  | [] => []
  | (name, part) :: rest => lines level (name ++ ": ") "," part ++ fieldLines level rest

/-- The lines of parts. -/
def partLines (level : Nat) : List Outline → List String
  | [] => []
  | part :: rest => lines level "" "," part ++ partLines level rest

end

/-- The text of an outline. -/
def text (o : Outline) : String := "\n".intercalate (o.lines 0 "" "")

/-- The outline of an optional part. -/
def ofOption : Option Outline → Outline
  | some part => .wrap "Some" part
  | none => .leaf "None"

/-- The outline of a place. -/
def ofPosition (p : Position) : Outline :=
  .record "FileLocation"
    [("cursor", .leaf p.offset.repr), ("line", .leaf p.line.repr),
      ("column", .leaf p.column.repr)]

/-- A record with the place it belongs to as its last part. -/
def located (name : String) (field : String) (part : Outline) (p : Position) : Outline :=
  .record name [(field, part), ("location", ofPosition p)]

end Outline

/-- The name of a prefix operator in an outline. -/
def UnaryOp.outlineName : UnaryOp → String
  | identity => "Pos"
  | negate => "Neg"
  | absolute => "Abs"

/-- The name of an infix operator in an outline. -/
def BinaryOp.outlineName : BinaryOp → String
  | add => "Add"
  | sub => "Sub"
  | mul => "Mul"
  | div => "Div"
  | pow => "Pow"
  | floorDiv => "FloorDiv"

namespace Expr

/-- An expression of the given shape, at its place. -/
def outlineAt (p : Position) (shape : Outline) : Outline :=
  .located "Expr" "expr_type" shape p

mutual

/-- The outline of an expression. -/
def outline : Expr → Outline
  | number p value =>
    outlineAt p (.wrap "Number" (.leaf (Style.outline.write value)))
  | identifier p name => outlineAt p (.wrap "Identifier" (.leaf (quoted name)))
  | unary p op target =>
    outlineAt p (.record "Unary"
      [("operator", .leaf op.outlineName), ("target", outline target)])
  | binary p op left right =>
    outlineAt p (.record "Binary"
      [("left", outline left), ("operator", .leaf op.outlineName),
        ("right", outline right)])
  | call p callee args =>
    outlineAt p (.record "Call"
      [("callee", outline callee), ("arguments", .items (outlines args))])

/-- The outlines of expressions. -/
def outlines : List Expr → List Outline
  | [] => []
  | e :: rest => outline e :: outlines rest

end

/-- The outline of an optional expression. -/
def outlineOption (e : Option Expr) : Outline := .ofOption (e.map outline)

end Expr

namespace Stmt

/-- A statement of the given shape, at its place. -/
def outlineAt (p : Position) (shape : Outline) : Outline :=
  .located "Stmt" "stmt_type" shape p

/-- A list of statements, at its place. -/
def outlineBlock (p : Position) (body : List Outline) : Outline :=
  .located "Block" "statements" (.items body) p

mutual

/-- The outline of a statement. -/
def outline : Stmt → Outline
  | var p name init =>
    outlineAt p (.record "Var"
      [("name", .leaf (quoted name)), ("initializer", Expr.outlineOption init)])
  | ret p value => outlineAt p (.wrap "Return" (Expr.outlineOption value))
  | func p name params bodyPos body =>
    outlineAt p (.wrap "Function" (.record "FunctionDecl"
      [("name", .leaf (quoted name)),
        ("params", .items (params.map fun param => .leaf (quoted param))),
        ("body", outlineBlock bodyPos (outlines body))]))
  | block p bodyPos body =>
    outlineAt p (.wrap "Block" (outlineBlock bodyPos (outlines body)))
  | expr p e => outlineAt p (.wrap "Expression" e.outline)

/-- The outlines of statements. -/
def outlines : List Stmt → List Outline
  | [] => []
  | s :: rest => outline s :: outlines rest

end

end Stmt

/-- The outline of a program. -/
def Program.outline (p : Program) : Outline :=
  Stmt.outlineBlock p.pos (Stmt.outlines p.body)

end ClosureCalc
