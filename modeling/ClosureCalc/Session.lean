/-
Units of source text run one after another in the same scope.

* `Evaluation`: what a unit answers, its value and the names it declared.
* `runProgram`, `interpret`: run a program, or a source text, in a root frame.
* `Store.standardRoot`: a root frame with the constants and built-in functions.
* `Session`: a root frame kept from unit to unit.
-/
import ClosureCalc.Eval
import ClosureCalc.Parser

namespace ClosureCalc

/-- What a unit answers: the value it returned or ended with, and the names it
added to the root frame. -/
structure Evaluation where
  value : Option Value
  declared : List String
deriving Inhabited

/-- Executes the statements of a unit. The value is the one returned, else
that of the last statement if it is an expression; `last` is the value so
far. -/
def executeUnit (exit : ExitRule) (call : Caller) (unit : Nat) (f : FrameId) :
    List Stmt → Option Value → Eval (Option Value)
  | [], last => return last
  | .expr _ e :: rest, _ => do
    let v ← evaluate call f e
    executeUnit exit call unit f rest (some v)
  | s :: rest, _ => do
    match ← execute exit call unit f s with
    | .normal => executeUnit exit call unit f rest none
    | .returned v => return some v

/-- Runs a program in a root frame, with calls nested at most `limit` deep. -/
def runProgram (exit : ExitRule) (limit : Nat) (root : FrameId) (p : Program) :
    Eval Evaluation := do
  let known := ((← get).names root).length
  let unit ← modifyGet Store.newUnit
  let value ← executeUnit exit (call exit limit) unit root p.body none
  return ⟨value, ((← get).names root).drop known⟩

/-- Runs a source text in a root frame. A text that does not parse changes
nothing. -/
def interpret (exit : ExitRule) (limit : Nat) (root : FrameId) (source : String) :
    Eval Evaluation :=
  match parse source with
  | .error e => Eval.fail e
  | .ok p => runProgram exit limit root p

/-- The limit on nested calls where none is given. -/
def defaultLimit : Nat := 100000

/-! ### The standard scope -/

/-- The constants and built-in functions, in the order of their declaration. -/
def standardNames (home : FrameId) : List (String × Value) :=
  constants ++ builtins.map fun b => (b.name, .builtin b home)
where
  constants : List (String × Value) :=
    [("pi", .number (3.141592653589793 : Float)),
      ("e", .number (2.718281828459045 : Float)),
      ("tau", .number (6.283185307179586 : Float)),
      ("inf", .number (1 / 0 : Float)),
      ("nan", .number Number.invalid)]
  builtins : List Builtin :=
    ([.sin, .cos, .tan, .asin, .acos, .atan, .sinh, .cosh, .tanh] : List Elementary).map
        .elementary ++
      [.atan2] ++
      ([.ln, .log2, .log10, .exp, .sqrt, .cbrt] : List Elementary).map .elementary ++
      [.log] ++
      ([.floor, .ceil, .round, .trunc] : List Elementary).map .elementary ++
      [.min, .max, .clamp] ++
      ([.abs, .sign] : List Elementary).map .elementary ++
      [.hypot, .random, .randomRange]

/-- Declares names with their values; a name that is taken keeps its value. -/
def Store.declareEach (s : Store) (f : FrameId) : List (String × Value) → Store
  | [] => s
  | (name, v) :: rest => ((s.declare f name v).toOption.getD s).declareEach f rest

/-- A new root frame with the standard names. -/
def Store.standardRoot (s : Store) : FrameId × Store :=
  let (f, s) := s.newRoot
  (f, s.declareEach f (standardNames f))

/-! ### Sessions -/

/-- A root frame that is kept from unit to unit, and the number of names it
came with. -/
structure Session where
  store : Store
  root : FrameId
  given : Nat
deriving Inhabited

namespace Session

/-- A session with an empty scope. -/
def bare (g : Generator) : Session :=
  let (root, store) := (Store.empty g).newRoot
  ⟨store, root, 0⟩

/-- A session with the standard scope. -/
def standard (g : Generator) : Session :=
  let (root, store) := (Store.empty g).standardRoot
  ⟨store, root, (store.names root).length⟩

/-- The names declared by the units so far. -/
def locals (s : Session) : List String := (s.store.names s.root).drop s.given

/-- Runs one unit. What it did to the scope stays, also if it stopped early. -/
def step (s : Session) (exit : ExitRule) (limit : Nat) (source : String) :
    Except Stop Evaluation × Session :=
  match interpret exit limit s.root source s.store with
  | .ok answer store => (.ok answer, { s with store })
  | .error stop store => (.error stop, { s with store })

end Session

end ClosureCalc
