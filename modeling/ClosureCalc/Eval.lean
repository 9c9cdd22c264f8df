/-
Running programs.

Expressions are evaluated and statements executed in a frame of the store.
Names are looked up from the frame outwards; a call runs the body of the
function in a new frame inside the one the function was declared in.

* `evaluate`, `execute`, `executeAll`: expressions, statements and lists of
  statements. All three take the way calls are carried out as a parameter.
* `call`: calls nested at most as deep as the given limit.
* `ExitRule`: what is done when a block or a call leaves its frame. The rule
  in use, `releaseOnExit`, empties the frame, unless the value that leaves it
  is a function from inside it; `keepOnExit` does nothing.
* `Stop`: the two ways a run can end early, by an error of the program or by
  reaching the limit.
-/
import ClosureCalc.Builtin.Apply
import ClosureCalc.Store

namespace ClosureCalc

/-- Why a run ended early. -/
inductive Stop where
  | error (e : Error)
  | depth
deriving DecidableEq, Inhabited

/-- Computations on the store. What they did to it stays done when they stop
early. -/
abbrev Eval := EStateM Stop Store

/-- How a statement was left. -/
inductive Flow where
  | normal
  | returned (v : Value)
deriving Inhabited

/-- The value that left a statement. -/
def Flow.value? : Flow → Option Value
  | normal => none
  | returned v => some v

/-- What is done when a frame is left, given the value that leaves it, if any
does. -/
abbrev ExitRule := FrameId → Option Value → Eval Unit

/-- Empties the frame, unless a function from inside it is returned. -/
def releaseOnExit : ExitRule := fun f result s =>
  match result with
  | none => .ok () (s.release f)
  | some v => .ok () (if s.captures v f then s else s.release f)

/-- Leaves the frame as it is. -/
def keepOnExit : ExitRule := fun _ _ s => .ok () s

/-- A way to carry out calls: callee, arguments and place of the call. -/
abbrev Caller := Value → List Value → Position → Eval Value

namespace Eval

/-- Stops with an error. -/
def fail {α : Type} (e : Error) : Eval α := throw (.error e)

/-- A new frame inside `f`. -/
def extend (f : FrameId) : Eval FrameId := modifyGet fun s => s.extend f

/-- Declares a name; the place is for the error. -/
def declare (f : FrameId) (name : String) (v : Value) (p : Position) : Eval Unit :=
  fun s =>
    if s.canDeclare f name then .ok () (s.bind f name v)
    else .error (.error (.name (.redeclared name) p)) s

/-- Declares names with their values, as far as both lists reach. -/
def declareAll (f : FrameId) (p : Position) : List String → List Value → Eval Unit
  | name :: names, v :: vs => do
    declare f name v p
    declareAll f p names vs
  | _, _ => return

/-- Runs the statements of a frame and leaves it, however they end. -/
def inFrame (exit : ExitRule) (f : FrameId) (body : Eval Flow) : Eval Flow := fun s =>
  match body s with
  | .ok flow s' => (do exit f flow.value?; return flow : Eval Flow) s'
  | .error stop s' => (do exit f none; throw stop : Eval Flow) s'

/-- The value of a prefix operation at `p`. -/
def unary (op : UnaryOp) (p : Position) : Value → Eval Value
  | .number a => return .number (op.apply a)
  | other => fail (.type (.operand op other.kind) p)

/-- The value of an infix operation on the values of two expressions. The left
operand is judged first; an error is reported at the operand it is about. -/
def binary (op : BinaryOp) (left right : Expr) : Value → Value → Eval Value
  | .number a, .number b => return .number (op.apply a b)
  | .number _, other => fail (.type (.rightOperand op other.kind) right.pos)
  | other, _ => fail (.type (.leftOperand op other.kind) left.pos)

/-- The value of a built-in function. -/
def builtin (b : Builtin) (args : List Value) (p : Position) : Eval Value := fun s =>
  if args.length < b.arity then .error (.error (.arity b.arity args.length p)) s
  else
    match b.apply args s.generator with
    | .ok (n, g) => .ok (.number n) { s with generator := g }
    | .error complaint => .error (.error (.type (.builtin b complaint) p)) s

end Eval

mutual

/-- The value of an expression in a frame. -/
def evaluate (call : Caller) (f : FrameId) : Expr → Eval Value
  | .number _ value => return .number value
  | .identifier p name => do
    match (← get).get? f name with
    | some v => return v
    | none => Eval.fail (.name (.unknown name) p)
  | .unary p op target => do
    Eval.unary op p (← evaluate call f target)
  | .binary _ op left right => do
    let a ← evaluate call f left
    let b ← evaluate call f right
    Eval.binary op left right a b
  | .call p callee args => do
    let v ← evaluate call f callee
    let vs ← evaluateAll call f args
    call v vs p

/-- The values of expressions, from left to right. -/
def evaluateAll (call : Caller) (f : FrameId) : List Expr → Eval (List Value)
  | [] => return []
  | e :: es => do
    let v ← evaluate call f e
    let vs ← evaluateAll call f es
    return v :: vs

end

/-- The value of an optional expression; without one it is undefined. -/
def evaluateOption (call : Caller) (f : FrameId) : Option Expr → Eval Value
  | some e => evaluate call f e
  | none => return .undefined

mutual

/-- Executes a statement of the program run `unit` in a frame. -/
def execute (exit : ExitRule) (call : Caller) (unit : Nat) (f : FrameId) :
    Stmt → Eval Flow
  | .var p name init => do
    let v ← evaluateOption call f init
    Eval.declare f name v p
    return .normal
  | .ret _ value => do
    return .returned (← evaluateOption call f value)
  | .func p name params _ body => do
    Eval.declare f name (.function ⟨unit, p, name, params, body⟩ f) p
    return .normal
  | .block _ _ body => do
    let inner ← Eval.extend f
    Eval.inFrame exit inner (executeAll exit call unit inner body)
  | .expr _ e => do
    let _ ← evaluate call f e
    return .normal

/-- Executes statements up to the first that returns. -/
def executeAll (exit : ExitRule) (call : Caller) (unit : Nat) (f : FrameId) :
    List Stmt → Eval Flow
  | [] => return .normal
  | s :: rest => do
    match ← execute exit call unit f s with
    | .normal => executeAll exit call unit f rest
    | .returned v => return .returned v

end

/-- Calls a declared function. Parameters and body share one new frame inside
the frame the function was declared in; arguments beyond the parameters are
dropped. -/
def callFunction (exit : ExitRule) (call : Caller) (decl : Declaration)
    (closure : FrameId) (args : List Value) (p : Position) : Eval Value := do
  if args.length < decl.params.length then
    Eval.fail (.arity decl.params.length args.length p)
  else
    let inner ← Eval.extend closure
    let flow ← Eval.inFrame exit inner do
      Eval.declareAll inner p decl.params args
      executeAll exit call decl.unit inner decl.body
    return flow.value?.getD .undefined

/-- Calls a value, with calls nested below it at most `n - 1` deep. -/
def call (exit : ExitRule) : Nat → Caller
  | 0, _, _, _ => throw .depth
  | n + 1, .function decl closure, args, p =>
    callFunction exit (call exit n) decl closure args p
  | _ + 1, .builtin b _, args, p => Eval.builtin b args p
  | _ + 1, other, _, p => Eval.fail (.type (.notCallable other.kind) p)

end ClosureCalc
