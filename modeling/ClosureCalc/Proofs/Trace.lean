/-
What happens during a run.

A run is recorded as a list of events, in the order in which they happen,
each with the store at that moment. The records follow the evaluator clause by
clause and take the stores in between from the evaluator itself.

* `Construct`: what has a frame of its own when it runs, a block or a
  declared function; `Stmt.declared?`: the name that a statement declares.
* `Event`: a program begins, an expression or a statement is about to be
  evaluated or executed, a frame is entered or left.
* `evaluateEvents`, `executeEvents`, `callEvents`, `interpretEvents`: the
  events of the parts of a run.
* `Session.events`, `Session.answers`, `Session.after`: the events of units
  run one after another, their answers, and the session behind them.
* `Eval.inNewFrame`: how blocks and calls run their statements; both
  are instances of it (`execute_block`, `callFunction_of_le`).
-/
import ClosureCalc.Session

namespace ClosureCalc

/-- What has a frame of its own when it runs. -/
inductive Construct where
  | block (unit : Nat) (pos : Position) (body : List Stmt)
  | function (decl : Declaration)
deriving Inhabited

/-- The statements of a construct. -/
def Construct.body : Construct → List Stmt
  | block _ _ body => body
  | function decl => decl.body

/-- The parameters of a construct; a block has none. -/
def Construct.params : Construct → List String
  | block _ _ _ => []
  | function decl => decl.params

/-- The name that a statement declares in the frame it is executed in. -/
def Stmt.declared? : Stmt → Option String
  | .var _ name _ => some name
  | .func _ name _ _ _ => some name
  | _ => none

/-- What happens during a run. Expressions and statements come with the unit
they are part of and the frame they are evaluated in; a frame is left with the
value that leaves it, if any does. -/
inductive Event where
  | begins (unit : Nat) (p : Program) (s : Store)
  | evaluates (unit : Nat) (f : FrameId) (e : Expr) (s : Store)
  | executes (unit : Nat) (f : FrameId) (st : Stmt) (s : Store)
  | enters (f : FrameId) (k : Construct) (s : Store)
  | leaves (f : FrameId) (result : Option Value) (s : Store)
deriving Inhabited

/-- The store at the moment of an event. -/
def Event.store : Event → Store
  | begins _ _ s => s
  | evaluates _ _ _ s => s
  | executes _ _ _ s => s
  | enters _ _ s => s
  | leaves _ _ s => s

/-- The events of a computation, by the store it starts from. -/
abbrev Record := Store → List Event

/-- Nothing happens. -/
def Record.none : Record := fun _ => []

/-- One event, then others. -/
def Record.cons (ev : Store → Event) (r : Record) : Record := fun s => ev s :: r s

namespace Eval

variable {α β : Type}

/-- The store behind a computation, whichever way it ends. -/
def after (x : Eval α) (s : Store) : Store :=
  match x s with
  | .ok _ s' => s'
  | .error _ s' => s'

/-- The events of a computation and of what follows it. -/
def recorded (x : Eval α) (r : Record) (k : α → Record) : Record := fun s =>
  r s ++
    match x s with
    | .ok a s' => k a s'
    | .error _ _ => []

theorem bind_ok {x : Eval α} {s s' : Store} {a : α} (h : x s = .ok a s') (k : α → Eval β) :
    (x >>= k) s = k a s' := by
  change EStateM.bind x k s = _
  rw [EStateM.bind, h]

theorem bind_error {x : Eval α} {s s' : Store} {e : Stop} (h : x s = .error e s')
    (k : α → Eval β) : (x >>= k) s = .error e s' := by
  change EStateM.bind x k s = _
  rw [EStateM.bind, h]

theorem after_ok {x : Eval α} {s s' : Store} {a : α} (h : x s = .ok a s') :
    x.after s = s' := by
  rw [after, h]

theorem after_error {x : Eval α} {s s' : Store} {e : Stop} (h : x s = .error e s') :
    x.after s = s' := by
  rw [after, h]

theorem recorded_ok {x : Eval α} {s s' : Store} {a : α} (h : x s = .ok a s') (r : Record)
    (k : α → Record) : x.recorded r k s = r s ++ k a s' := by
  rw [recorded, h]

theorem recorded_error {x : Eval α} {s s' : Store} {e : Stop} (h : x s = .error e s')
    (r : Record) (k : α → Record) : x.recorded r k s = r s := by
  rw [recorded, h, List.append_nil]

/-- What follows may be without events. -/
theorem recorded_none (x : Eval α) (r : Record) : x.recorded r (fun _ => .none) = r := by
  funext s
  rcases h : x s with ⟨a, s'⟩ | ⟨e, s'⟩
  · rw [recorded_ok h, Record.none, List.append_nil]
  · rw [recorded_error h]

/-- Runs the statements of a new frame inside `f` and leaves it. -/
def inNewFrame (exit : ExitRule) (f : FrameId) (body : FrameId → Eval Flow) : Eval Flow := do
  let inner ← extend f
  inFrame exit inner (body inner)

/-- The way a frame is left, by how its statements end. -/
def leaving (f : FrameId) : EStateM.Result Stop Store Flow → Event
  | .ok flow s => .leaves f flow.value? s
  | .error _ s => .leaves f none s

/-- The events of the statements of a new frame inside `f`. -/
def newFrameEvents (k : Construct) (f : FrameId) (body : FrameId → Eval Flow)
    (events : FrameId → Record) : Record := fun s =>
  let (inner, s') := s.extend f
  .enters inner k s :: (events inner s' ++ [leaving inner (body inner s')])

end Eval

/-! ### Expressions -/

/-- The events of calls: callee, arguments and place of the call. -/
abbrev CallRecord := Value → List Value → Position → Record

mutual

/-- The events of evaluating an expression of a unit. -/
def evaluateEvents (call : Caller) (calls : CallRecord) (unit : Nat) (f : FrameId)
    (e : Expr) : Record :=
  .cons (.evaluates unit f e) <|
    match e with
    | .number _ _ => .none
    | .identifier _ _ => .none
    | .unary _ _ target => evaluateEvents call calls unit f target
    | .binary _ _ left right =>
      (evaluate call f left).recorded (evaluateEvents call calls unit f left) fun _ =>
        evaluateEvents call calls unit f right
    | .call p callee args =>
      (evaluate call f callee).recorded (evaluateEvents call calls unit f callee) fun v =>
        (evaluateAll call f args).recorded (evaluateAllEvents call calls unit f args) fun vs =>
          calls v vs p

/-- The events of evaluating expressions from left to right. -/
def evaluateAllEvents (call : Caller) (calls : CallRecord) (unit : Nat) (f : FrameId) :
    List Expr → Record
  | [] => .none
  | e :: es =>
    (evaluate call f e).recorded (evaluateEvents call calls unit f e) fun _ =>
      evaluateAllEvents call calls unit f es

end

/-- The events of evaluating an optional expression. -/
def evaluateOptionEvents (call : Caller) (calls : CallRecord) (unit : Nat) (f : FrameId) :
    Option Expr → Record
  | some e => evaluateEvents call calls unit f e
  | none => .none

/-! ### Statements -/

mutual

/-- The events of executing a statement of a unit. -/
def executeEvents (exit : ExitRule) (call : Caller) (calls : CallRecord) (unit : Nat)
    (f : FrameId) (st : Stmt) : Record :=
  .cons (.executes unit f st) <|
    match st with
    | .var _ _ init => evaluateOptionEvents call calls unit f init
    | .ret _ value => evaluateOptionEvents call calls unit f value
    | .func _ _ _ _ _ => .none
    | .block p _ body =>
      Eval.newFrameEvents (.block unit p body) f
        (fun inner => executeAll exit call unit inner body)
        (fun inner => executeAllEvents exit call calls unit inner body)
    | .expr _ e => evaluateEvents call calls unit f e

/-- The events of executing statements up to the first that returns. -/
def executeAllEvents (exit : ExitRule) (call : Caller) (calls : CallRecord) (unit : Nat)
    (f : FrameId) : List Stmt → Record
  | [] => .none
  | st :: rest =>
    (execute exit call unit f st).recorded (executeEvents exit call calls unit f st)
      fun
        | .normal => executeAllEvents exit call calls unit f rest
        | .returned _ => .none

end

/-! ### Calls -/

/-- What a call of a declared function runs in its new frame: the parameters
are declared, then the statements of the body are executed. -/
def callBody (exit : ExitRule) (call : Caller) (decl : Declaration) (args : List Value)
    (p : Position) (inner : FrameId) : Eval Flow := do
  Eval.declareAll inner p decl.params args
  executeAll exit call decl.unit inner decl.body

/-- The events of what a call runs in its new frame. -/
def callBodyEvents (exit : ExitRule) (call : Caller) (calls : CallRecord)
    (decl : Declaration) (args : List Value) (p : Position) (inner : FrameId) : Record :=
  (Eval.declareAll inner p decl.params args).recorded .none fun _ =>
    executeAllEvents exit call calls decl.unit inner decl.body

/-- The events of calling a declared function. -/
def callFunctionEvents (exit : ExitRule) (call : Caller) (calls : CallRecord)
    (decl : Declaration) (closure : FrameId) (args : List Value) (p : Position) : Record :=
  if args.length < decl.params.length then .none
  else
    Eval.newFrameEvents (.function decl) closure (callBody exit call decl args p)
      (callBodyEvents exit call calls decl args p)

/-- The events of calling a value, with calls nested below it at most `n - 1`
deep. -/
def callEvents (exit : ExitRule) : Nat → CallRecord
  | n + 1, .function decl closure, args, p =>
    callFunctionEvents exit (call exit n) (callEvents exit n) decl closure args p
  | _, _, _, _ => .none

/-! ### Clauses of the evaluator -/

/-- A name stands for the value it is bound to. -/
theorem evaluate_identifier (call : Caller) (f : FrameId) (p : Position) (name : String)
    (s : Store) :
    evaluate call f (.identifier p name) s =
      match s.get? f name with
      | some v => .ok v s
      | none => .error (.error (.name (.unknown name) p)) s := by
  rw [evaluate]
  change (match s.get? f name with
    | some v => (return v : Eval Value)
    | none => Eval.fail (.name (.unknown name) p)) s = _
  cases s.get? f name <;> rfl

/-- A built-in function leaves the frames alone and has no functions as
values. -/
theorem builtin_cases (b : Builtin) (args : List Value) (p : Position) (s : Store) :
    (∃ n g, Eval.builtin b args p s = .ok (.number n) { s with generator := g }) ∨
      ∃ e, Eval.builtin b args p s = .error (.error e) s := by
  unfold Eval.builtin
  split
  · exact .inr ⟨_, rfl⟩
  · split
    · exact .inl ⟨_, _, rfl⟩
    · exact .inr ⟨_, rfl⟩

/-- A name is declared if the frame does not declare it yet. -/
theorem declare_cases (f : FrameId) (name : String) (v : Value) (p : Position) (s : Store) :
    (s.canDeclare f name = true ∧ Eval.declare f name v p s = .ok () (s.bind f name v)) ∨
      Eval.declare f name v p s = .error (.error (.name (.redeclared name) p)) s := by
  unfold Eval.declare
  split
  · rename_i h
    exact .inl ⟨h, rfl⟩
  · exact .inr rfl

/-- A block runs its statements in a new frame. -/
theorem execute_block (exit : ExitRule) (call : Caller) (unit : Nat) (f : FrameId)
    (p bodyPos : Position) (body : List Stmt) :
    execute exit call unit f (.block p bodyPos body) =
      Eval.inNewFrame exit f fun inner => executeAll exit call unit inner body := by
  rw [execute]
  rfl

/-- What is behind a statement is executed if the statement ends normally. -/
theorem executeAll_cons_apply (exit : ExitRule) (call : Caller) (unit : Nat) (f : FrameId)
    (st : Stmt) (rest : List Stmt) (s : Store) :
    executeAll exit call unit f (st :: rest) s =
      match execute exit call unit f st s with
      | .ok .normal s' => executeAll exit call unit f rest s'
      | .ok (.returned v) s' => .ok (.returned v) s'
      | .error stop s' => .error stop s' := by
  rw [executeAll]
  rcases h : execute exit call unit f st s with ⟨_ | v, s'⟩ | ⟨stop, s'⟩
  · exact Eval.bind_ok h _
  · exact Eval.bind_ok h _
  · exact Eval.bind_error h _

/-- A call with arguments enough runs the function in a new frame. -/
theorem callFunction_of_le {decl : Declaration} {args : List Value}
    (h : decl.params.length ≤ args.length) (exit : ExitRule) (call : Caller)
    (closure : FrameId) (p : Position) :
    callFunction exit call decl closure args p =
      (do
        let flow ← Eval.inNewFrame exit closure (callBody exit call decl args p)
        return flow.value?.getD .undefined) := by
  rw [callFunction, if_neg (Nat.not_lt.2 h)]
  funext s
  rfl

/-! ### Units and sessions -/

/-- The events of the statements of a unit. -/
def executeUnitEvents (exit : ExitRule) (call : Caller) (calls : CallRecord) (unit : Nat)
    (f : FrameId) : List Stmt → Record
  | [] => .none
  | .expr _ e :: rest =>
    (evaluate call f e).recorded (evaluateEvents call calls unit f e) fun _ =>
      executeUnitEvents exit call calls unit f rest
  | st :: rest =>
    (execute exit call unit f st).recorded (executeEvents exit call calls unit f st)
      fun
        | .normal => executeUnitEvents exit call calls unit f rest
        | .returned _ => .none

/-- A statement of a unit other than an expression is executed like any
other. -/
theorem executeUnit_cons {st : Stmt} (h : ∀ p e, st ≠ .expr p e) (exit : ExitRule)
    (call : Caller) (unit : Nat) (f : FrameId) (rest : List Stmt) (last : Option Value) :
    executeUnit exit call unit f (st :: rest) last =
      execute exit call unit f st >>= fun
        | .normal => executeUnit exit call unit f rest none
        | .returned v => return some v := by
  cases st with
  | expr p e => exact absurd rfl (h p e)
  | _ => rfl

theorem executeUnitEvents_cons {st : Stmt} (h : ∀ p e, st ≠ .expr p e) (exit : ExitRule)
    (call : Caller) (calls : CallRecord) (unit : Nat) (f : FrameId) (rest : List Stmt) :
    executeUnitEvents exit call calls unit f (st :: rest) =
      (execute exit call unit f st).recorded (executeEvents exit call calls unit f st) fun
        | .normal => executeUnitEvents exit call calls unit f rest
        | .returned _ => .none := by
  cases st with
  | expr p e => exact absurd rfl (h p e)
  | _ => rfl

/-- The events of running a program in a root frame. -/
def runProgramEvents (exit : ExitRule) (limit : Nat) (root : FrameId) (p : Program) :
    Record := fun s =>
  let (unit, s') := s.newUnit
  .begins unit p s' ::
    executeUnitEvents exit (call exit limit) (callEvents exit limit) unit root p.body s'

/-- A program runs in the store with the next unit number. -/
theorem runProgram_apply (exit : ExitRule) (limit : Nat) (root : FrameId) (p : Program)
    (s : Store) :
    runProgram exit limit root p s =
      match executeUnit exit (call exit limit) s.units root p.body none s.newUnit.2 with
      | .ok value s' => .ok ⟨value, (s'.names root).drop (s.names root).length⟩ s'
      | .error stop s' => .error stop s' := by
  change EStateM.bind (executeUnit exit (call exit limit) s.units root p.body none) _
    s.newUnit.2 = _
  rw [EStateM.bind]
  cases executeUnit exit (call exit limit) s.units root p.body none s.newUnit.2 <;> rfl

/-- The events of running a source text in a root frame. -/
def interpretEvents (exit : ExitRule) (limit : Nat) (root : FrameId) (source : String) :
    Record :=
  match parse source with
  | .error _ => .none
  | .ok p => runProgramEvents exit limit root p

/-- Whether a unit stops for the given reason. -/
def stopsFor (stop : Stop) : Except Stop Evaluation → Bool
  | .error stop' => decide (stop' = stop)
  | .ok _ => false

theorem eq_error_of_stopsFor {stop : Stop} {x : Except Stop Evaluation}
    (h : stopsFor stop x = true) : x = .error stop := by
  cases x with
  | error stop' => rw [of_decide_eq_true h]
  | ok answer => cases h

namespace Session

/-- The session behind some units. -/
def after (s : Session) (exit : ExitRule) (limit : Nat) : List String → Session
  | [] => s
  | source :: rest => (s.step exit limit source).2.after exit limit rest

/-- The answers of units run one after another. -/
def answers (s : Session) (exit : ExitRule) (limit : Nat) :
    List String → List (Except Stop Evaluation)
  | [] => []
  | source :: rest =>
    (s.step exit limit source).1 :: (s.step exit limit source).2.answers exit limit rest

/-- The events of units run one after another. -/
def events (s : Session) (exit : ExitRule) (limit : Nat) : List String → List Event
  | [] => []
  | source :: rest =>
    interpretEvents exit limit s.root source s.store ++
      (s.step exit limit source).2.events exit limit rest

@[simp]
theorem root_step (s : Session) (exit : ExitRule) (limit : Nat) (source : String) :
    (s.step exit limit source).2.root = s.root := by
  unfold step
  split <;> rfl

theorem store_step (s : Session) (exit : ExitRule) (limit : Nat) (source : String) :
    (s.step exit limit source).2.store =
      (interpret exit limit s.root source).after s.store := by
  rcases h : interpret exit limit s.root source s.store with ⟨answer, s'⟩ | ⟨stop, s'⟩
  · rw [step, h, Eval.after_ok h]
  · rw [step, h, Eval.after_error h]

@[simp]
theorem root_after (s : Session) (exit : ExitRule) (limit : Nat) (sources : List String) :
    (s.after exit limit sources).root = s.root := by
  induction sources generalizing s with
  | nil => rfl
  | cons source rest ih => rw [after, ih, root_step]

theorem after_append (s : Session) (exit : ExitRule) (limit : Nat)
    (sources more : List String) :
    s.after exit limit (sources ++ more) =
      (s.after exit limit sources).after exit limit more := by
  induction sources generalizing s with
  | nil => rfl
  | cons source rest ih => rw [List.cons_append, after, after, ih]

theorem events_append (s : Session) (exit : ExitRule) (limit : Nat)
    (sources more : List String) :
    s.events exit limit (sources ++ more) =
      s.events exit limit sources ++
        (s.after exit limit sources).events exit limit more := by
  induction sources generalizing s with
  | nil => rfl
  | cons source rest ih => rw [List.cons_append, events, events, after, ih, List.append_assoc]

end Session

end ClosureCalc
