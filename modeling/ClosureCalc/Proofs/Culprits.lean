/-
The node that a run stops at.

An error of a run is about a name, a number of arguments or a value, and it is
reported at the place of a node that was about to be evaluated or executed: the node
itself or an operand that has been evaluated, and for a call the callee.

* `ErrorKind.IsOfRun`: the classes of errors that a run can have.
* `nodePlaces`: the places of the nodes that were evaluated or executed.
* `Eval.Blames`: a computation stops only with errors of this kind, at such places or
  at given ones. It passes through binds (`Eval.Blames.bind`) and through frames that
  are entered and left (`Eval.Blames.inNewFrame`).
* `blames_evaluate`, `blames_execute`, `blames_call`, `blames_runProgram`: expressions,
  statements, calls and programs.
-/
import ClosureCalc.Proofs.Constructs

namespace ClosureCalc

/-- **The classes of errors that a run can have.** -/
def ErrorKind.IsOfRun (kind : ErrorKind) : Prop :=
  kind = .name ∨ kind = .arity ∨ kind = .type

/-- The node that is evaluated or executed with an event. -/
def Event.node? : Event → Option Node
  | .evaluates _ _ e _ => some (.expr e)
  | .executes _ _ st _ => some (.stmt st)
  | _ => none

/-- The places of the nodes that are evaluated or executed with some events. -/
def nodePlaces (τ : List Event) : Set Position :=
  {p | ∃ ev ∈ τ, ∃ node, ev.node? = some node ∧ node.pos = p}

lemma nodePlaces_append (τ τ' : List Event) :
    nodePlaces (τ ++ τ') = nodePlaces τ ∪ nodePlaces τ' := by
  ext p
  simp [nodePlaces, or_and_right, exists_or]

lemma mem_nodePlaces_cons {ev : Event} {node : Node} (h : ev.node? = some node)
    (τ : List Event) : node.pos ∈ nodePlaces (ev :: τ) :=
  ⟨ev, List.mem_cons_self, node, h, rfl⟩

lemma nodePlaces_subset_cons (ev : Event) (τ : List Event) :
    nodePlaces τ ⊆ nodePlaces (ev :: τ) := by
  rintro p ⟨ev', hev', hnode⟩
  exact ⟨ev', List.mem_cons_of_mem ev hev', hnode⟩

namespace Eval

/-! ### Computations that stop -/

section Rules

variable {α β : Type} {P Q : Set Position} {x : Eval α} {k : α → Eval β}
variable {r : Record} {rk : α → Record}

/-- **A computation blames nodes**: the errors it stops with are errors of a run,
reported at the place of one of its nodes or at one of the places `P`. -/
def Blames (P : Set Position) (x : Eval α) (r : Record) : Prop :=
  ∀ s e s', x s = .error (.error e) s' →
    e.kind.IsOfRun ∧ ∃ p ∈ P ∪ nodePlaces (r s), e.pos? = some p

lemma blames_pure (a : α) : (pure a : Eval α).Blames P .none :=
  fun s e s' h => by cases h

lemma blames_fail {e : Error} {p : Position} (hkind : e.kind.IsOfRun) (hpos : e.pos? = some p) :
    (fail e : Eval α).Blames {p} .none := by
  intro s e' s' h
  cases h
  exact ⟨hkind, p, .inl rfl, hpos⟩

/-- A given place may be left out if it is that of a node. -/
lemma Blames.absorb (h : x.Blames P r) (hP : ∀ p ∈ P, p ∈ Q ∨ ∀ s, p ∈ nodePlaces (r s)) :
    x.Blames Q r := by
  intro s e s' hx
  obtain ⟨hkind, p, hp, hpos⟩ := h s e s' hx
  refine ⟨hkind, p, ?_, hpos⟩
  rcases hp with hp | hp
  · exact (hP p hp).imp id fun hnode => hnode s
  · exact .inr hp

lemma Blames.mono (h : x.Blames P r) (hPQ : P ⊆ Q) : x.Blames Q r :=
  h.absorb fun _ hp => .inl (hPQ hp)

lemma Blames.bind (hx : x.Blames P r) (hk : ∀ a, (k a).Blames P (rk a)) :
    (x >>= k).Blames P (x.recorded r rk) := by
  intro s e s' h
  rcases hres : x s with ⟨a, s₁⟩ | ⟨stop, s₁⟩
  · rw [bind_ok hres] at h
    rw [recorded_ok hres, nodePlaces_append, Set.union_left_comm]
    obtain ⟨hkind, p, hp, hpos⟩ := hk a s₁ e s' h
    exact ⟨hkind, p, .inr hp, hpos⟩
  · rw [bind_error hres] at h
    cases h
    rw [recorded_error hres]
    exact hx s e s' hres

/-- What follows a computation may be without events. -/
lemma Blames.bind_quiet (hx : x.Blames P r) (hk : ∀ a, (k a).Blames P .none) :
    (x >>= k).Blames P r := by
  have h := hx.bind hk
  rwa [recorded_none] at h

/-- A node that is about to be evaluated or executed may be blamed. -/
lemma Blames.node {p : Position} (h : x.Blames {p} r) {node : Node} (hnode : node.pos = p)
    {ev : Store → Event} (hev : ∀ s, (ev s).node? = some node) : x.Blames P (.cons ev r) := by
  subst hnode
  intro s e s' hx
  obtain ⟨hkind, p, hp, hpos⟩ := h s e s' hx
  refine ⟨hkind, p, .inr ?_, hpos⟩
  rcases hp with rfl | hp
  · exact mem_nodePlaces_cons (hev s) _
  · exact nodePlaces_subset_cons _ _ hp

lemma Blames.evaluates {p : Position} (h : x.Blames {p} r) (unit : Nat) (f : FrameId) {e : Expr}
    (he : e.pos = p) : x.Blames P (.cons (.evaluates unit f e) r) :=
  h.node (show (Node.expr e).pos = p from he) fun _ => rfl

lemma Blames.executes {p : Position} (h : x.Blames {p} r) (unit : Nat) (f : FrameId) {st : Stmt}
    (hst : st.pos = p) : x.Blames P (.cons (.executes unit f st) r) :=
  h.node (show (Node.stmt st).pos = p from hst) fun _ => rfl

/-- Entering and leaving a frame is not to blame. -/
lemma Blames.inNewFrame {body : FrameId → Eval Flow} {events : FrameId → Record}
    (h : ∀ inner, (body inner).Blames P (events inner)) (k : Construct) (f : FrameId) :
    (inNewFrame releaseOnExit f body).Blames P (newFrameEvents k f body events) := by
  intro s e s' hx
  rcases hb : body s.frames.size (s.extend f).2 with ⟨flow, s₁⟩ | ⟨stop, s₁⟩
  · rw [inNewFrame_ok hb] at hx
    cases hx
  · rw [inNewFrame_error hb] at hx
    cases hx
    rw [newFrameEvents_error hb]
    obtain ⟨hkind, p, hp, hpos⟩ := h _ _ e s₁ hb
    refine ⟨hkind, p, hp.imp id fun hnode => nodePlaces_subset_cons _ _ ?_, hpos⟩
    rw [nodePlaces_append]
    exact .inl hnode

end Rules

/-! ### Single operations -/

lemma blames_declare (f : FrameId) (name : String) (v : Value) (p : Position) :
    (declare f name v p).Blames {p} .none := by
  intro s e s' h
  rcases declare_cases f name v p s with ⟨-, hd⟩ | hd
  · rw [hd] at h
    cases h
  · rw [hd] at h
    cases h
    exact ⟨.inl rfl, p, .inl rfl, rfl⟩

lemma blames_declareAll (f : FrameId) (p : Position) :
    ∀ (names : List String) (vs : List Value), (declareAll f p names vs).Blames {p} .none
  | name :: names, v :: vs => by
      rw [declareAll]
      exact (blames_declare f name v p).bind_quiet fun _ => blames_declareAll f p names vs
  | [], vs => by
      rw [declareAll]
      · exact blames_pure ()
      · simp
  | name :: names, [] => by
      rw [declareAll]
      · exact blames_pure ()
      · simp

lemma blames_unary (op : UnaryOp) (p : Position) (v : Value) :
    (unary op p v).Blames {p} .none := by
  cases v with
  | number a => exact blames_pure _
  | _ => exact blames_fail (.inr (.inr rfl)) rfl

/-- An operand is blamed, the left one first. -/
lemma blames_binary (op : BinaryOp) (left right : Expr) (v w : Value) :
    (binary op left right v w).Blames {left.pos, right.pos} .none := by
  have hleft : ({left.pos} : Set Position) ⊆ {left.pos, right.pos} := by simp
  have hright : ({right.pos} : Set Position) ⊆ {left.pos, right.pos} := by simp
  cases v with
  | number a =>
    cases w with
    | number b => exact blames_pure _
    | _ => exact (blames_fail (.inr (.inr rfl)) rfl).mono hright
  | _ => exact (blames_fail (.inr (.inr rfl)) rfl).mono hleft

lemma blames_builtin (b : Builtin) (args : List Value) (p : Position) :
    (builtin b args p).Blames {p} .none := by
  intro s e s' h
  rw [builtin] at h
  split at h
  · cases h
    exact ⟨.inr (.inl rfl), p, .inl rfl, rfl⟩
  · split at h
    · cases h
    · cases h
      exact ⟨.inr (.inr rfl), p, .inl rfl, rfl⟩

end Eval

/-! ### Evaluation and execution -/

lemma blames_identifier (caller : Caller) (f : FrameId) (p : Position) (name : String) :
    (evaluate caller f (.identifier p name)).Blames {p} .none := by
  intro s e s' h
  rw [evaluate_identifier] at h
  split at h
  · cases h
  · cases h
    exact ⟨.inl rfl, p, .inl rfl, rfl⟩

section Run

variable {caller : Caller} {calls : CallRecord}

/-- The evaluation of an expression is the first of its events. -/
lemma pos_mem_evaluateEvents (unit : Nat) (f : FrameId) (e : Expr) (s : Store) :
    e.pos ∈ nodePlaces (evaluateEvents caller calls unit f e s) := by
  have hfirst : ∃ τ, evaluateEvents caller calls unit f e s = .evaluates unit f e s :: τ := by
    rw [evaluateEvents.eq_def]
    exact ⟨_, rfl⟩
  obtain ⟨τ, hτ⟩ := hfirst
  rw [hτ]
  exact mem_nodePlaces_cons (rfl : Event.node? _ = some (.expr e)) τ

mutual

/-- Evaluating an expression stops at a node of it, or in a call. -/
lemma blames_evaluate (hcall : ∀ v args p, (caller v args p).Blames {p} (calls v args p))
    (unit : Nat) (f : FrameId) :
    ∀ e, (evaluate caller f e).Blames ∅ (evaluateEvents caller calls unit f e)
  | .number p x => by
      rw [evaluate, evaluateEvents]
      exact (Eval.blames_pure _).evaluates unit f (rfl : _ = p)
  | .identifier p name => by
      rw [evaluateEvents]
      exact (blames_identifier caller f p name).evaluates unit f rfl
  | .unary p op target => by
      rw [evaluate, evaluateEvents]
      have htarget := (blames_evaluate hcall unit f target).mono (Set.empty_subset {p})
      have h := htarget.bind_quiet fun v => Eval.blames_unary op p v
      exact h.evaluates unit f rfl
  | .binary p op left right => by
      rw [evaluate, evaluateEvents]
      have hleft := (blames_evaluate hcall unit f left).mono (Set.empty_subset {left.pos})
      have hright := (blames_evaluate hcall unit f right).mono
        (Set.empty_subset {left.pos, right.pos})
      have h := hleft.bind fun a => by
        have hboth := hright.bind_quiet fun b => Eval.blames_binary op left right a b
        -- the right operand has been evaluated, so that its place is that of a node
        refine hboth.absorb fun q hq => ?_
        rcases hq with rfl | rfl
        · exact .inl rfl
        · exact .inr fun s => pos_mem_evaluateEvents unit f right s
      -- and so has the left one
      have h' : Eval.Blames {p} _ _ := h.absorb fun q hq => .inr fun s => by
        rw [Set.mem_singleton_iff.1 hq, Eval.recorded, nodePlaces_append]
        exact .inl (pos_mem_evaluateEvents unit f left s)
      exact h'.evaluates unit f rfl
  | .call p callee args => by
      rw [evaluate, evaluateEvents]
      have hcallee := (blames_evaluate hcall unit f callee).mono (Set.empty_subset {p})
      have hargs := (blames_evaluateAll hcall unit f args).mono (Set.empty_subset {p})
      have h := hcallee.bind fun v => hargs.bind fun vs => hcall v vs p
      exact h.evaluates unit f rfl

/-- Evaluating expressions stops at a node of one of them, or in a call. -/
lemma blames_evaluateAll (hcall : ∀ v args p, (caller v args p).Blames {p} (calls v args p))
    (unit : Nat) (f : FrameId) :
    ∀ es, (evaluateAll caller f es).Blames ∅ (evaluateAllEvents caller calls unit f es)
  | [] => by
      rw [evaluateAll, evaluateAllEvents]
      exact Eval.blames_pure _
  | e :: es => by
      rw [evaluateAll, evaluateAllEvents]
      have hfirst := blames_evaluate hcall unit f e
      have hrest := blames_evaluateAll hcall unit f es
      exact hfirst.bind fun v => hrest.bind_quiet fun vs => Eval.blames_pure _

end

lemma blames_evaluateOption
    (hcall : ∀ v args p, (caller v args p).Blames {p} (calls v args p)) (unit : Nat)
    (f : FrameId) (e : Option Expr) :
    (evaluateOption caller f e).Blames ∅ (evaluateOptionEvents caller calls unit f e) := by
  cases e with
  | some e => exact blames_evaluate hcall unit f e
  | none => exact Eval.blames_pure _

mutual

/-- Executing a statement stops at a node of it, or in a call. -/
lemma blames_execute (hcall : ∀ v args p, (caller v args p).Blames {p} (calls v args p))
    (unit : Nat) (f : FrameId) :
    ∀ st, (execute releaseOnExit caller unit f st).Blames ∅
      (executeEvents releaseOnExit caller calls unit f st)
  | .var p name init => by
      rw [execute, executeEvents]
      have hinit := (blames_evaluateOption hcall unit f init).mono (Set.empty_subset {p})
      have h := hinit.bind_quiet fun v => (Eval.blames_declare f name v p).bind_quiet fun _ =>
        Eval.blames_pure Flow.normal
      exact h.executes unit f rfl
  | .ret p value => by
      rw [execute, executeEvents]
      have hvalue := (blames_evaluateOption hcall unit f value).mono (Set.empty_subset {p})
      have h := hvalue.bind_quiet fun v => Eval.blames_pure (Flow.returned v)
      exact h.executes unit f rfl
  | .func p name params bodyPos body => by
      rw [execute, executeEvents]
      have hdeclare := Eval.blames_declare f name (.function ⟨unit, p, name, params, body⟩ f) p
      have h := hdeclare.bind_quiet fun _ => Eval.blames_pure Flow.normal
      exact h.executes unit f rfl
  | .block p bodyPos body => by
      rw [execute_block, executeEvents]
      have hbody := fun inner =>
        (blames_executeAll hcall unit inner body).mono (Set.empty_subset {p})
      exact (Eval.Blames.inNewFrame hbody (.block unit p body) f).executes unit f rfl
  | .expr p e => by
      rw [execute, executeEvents]
      have he := (blames_evaluate hcall unit f e).mono (Set.empty_subset {p})
      have h := he.bind_quiet fun _ => Eval.blames_pure Flow.normal
      exact h.executes unit f rfl

/-- Executing statements stops at a node of one of them, or in a call. -/
lemma blames_executeAll (hcall : ∀ v args p, (caller v args p).Blames {p} (calls v args p))
    (unit : Nat) (f : FrameId) :
    ∀ sts, (executeAll releaseOnExit caller unit f sts).Blames ∅
      (executeAllEvents releaseOnExit caller calls unit f sts)
  | [] => by
      rw [executeAll, executeAllEvents]
      exact Eval.blames_pure _
  | st :: rest => by
      rw [executeAll, executeAllEvents]
      have hfirst := blames_execute hcall unit f st
      have hrest := blames_executeAll hcall unit f rest
      refine hfirst.bind fun flow => ?_
      cases flow with
      | normal => exact hrest
      | returned v => exact Eval.blames_pure _

end

/-- Calling a declared function stops at the place of the call, or in the function. -/
lemma blames_callFunction
    (hcall : ∀ v args p, (caller v args p).Blames {p} (calls v args p)) (decl : Declaration)
    (closure : FrameId) (args : List Value) (p : Position) :
    (callFunction releaseOnExit caller decl closure args p).Blames {p}
      (callFunctionEvents releaseOnExit caller calls decl closure args p) := by
  by_cases h : args.length < decl.params.length
  · rw [callFunction, if_pos h, callFunctionEvents, if_pos h]
    exact Eval.blames_fail (.inr (.inl rfl)) rfl
  · rw [callFunction_of_le (Nat.not_lt.1 h), callFunctionEvents, if_neg h]
    have hbody := fun inner => (Eval.blames_declareAll inner p decl.params args).bind fun _ =>
      (blames_executeAll hcall decl.unit inner decl.body).mono (Set.empty_subset {p})
    exact (Eval.Blames.inNewFrame hbody (.function decl) closure).bind_quiet fun flow =>
      Eval.blames_pure _

end Run

/-- **Calls stop** at the place of the call, or at a node of the functions that they
run. -/
theorem blames_call (n : Nat) (v : Value) (args : List Value) (p : Position) :
    (call releaseOnExit n v args p).Blames {p} (callEvents releaseOnExit n v args p) := by
  induction n generalizing v args p with
  | zero => exact fun s e s' h => by cases h
  | succ n ih =>
    cases v with
    | function decl closure => exact blames_callFunction ih decl closure args p
    | number x => exact Eval.blames_fail (.inr (.inr rfl)) rfl
    | builtin b home => exact Eval.blames_builtin b args p
    | undefined => exact Eval.blames_fail (.inr (.inr rfl)) rfl

/-! ### Units -/

lemma blames_executeUnit (limit unit : Nat) (root : FrameId) (sts : List Stmt)
    (last : Option Value) :
    (executeUnit releaseOnExit (call releaseOnExit limit) unit root sts last).Blames ∅
      (executeUnitEvents releaseOnExit (call releaseOnExit limit)
        (callEvents releaseOnExit limit) unit root sts) := by
  have hcall := blames_call limit
  induction sts generalizing last with
  | nil => exact Eval.blames_pure _
  | cons st rest ih =>
    by_cases h : ∃ p e, st = .expr p e
    · obtain ⟨p, e, rfl⟩ := h
      exact (blames_evaluate hcall unit root e).bind fun v => ih (some v)
    · have hne : ∀ p e, st ≠ .expr p e := fun p e he => h ⟨p, e, he⟩
      rw [executeUnit_cons hne, executeUnitEvents_cons hne]
      refine (blames_execute hcall unit root st).bind fun flow => ?_
      cases flow with
      | normal => exact ih none
      | returned v => exact Eval.blames_pure _

/-- **Programs stop at nodes** that are evaluated or executed. -/
theorem blames_runProgram (limit : Nat) (root : FrameId) (p : Program) :
    (runProgram releaseOnExit limit root p).Blames ∅
      (runProgramEvents releaseOnExit limit root p) := by
  intro s e s' h
  rw [runProgram_apply] at h
  split at h
  · cases h
  · rename_i stop s₁ hx
    cases h
    obtain ⟨hkind, pos, hp, hpos⟩ := blames_executeUnit limit _ root p.body none _ e s' hx
    exact ⟨hkind, pos, hp.imp id fun hnode => nodePlaces_subset_cons _ _ hnode, hpos⟩

end ClosureCalc
