/-
The effect of evaluation, execution and calls.

* `Eval.Affects`: a computation with its record has an effect from every store;
  it passes through binds (`Eval.Affects.bind`) and through frames that are
  entered and left (`Eval.Affects.inNewFrame`).
* `affects_evaluate`, `affects_execute`, `affects_call`: expressions and calls
  change no frame, statements at most the one they are executed in.
* `Session.effect`: only the root frame gains names from unit to unit.
-/
import ClosureCalc.Proofs.Effect

namespace ClosureCalc

namespace Eval

variable {α β : Type} {A : Set FrameId}

/-- **A computation affects at most the frames of `A`**: from every store its
events have such an effect. -/
def Affects (A : Set FrameId) (x : Eval α) (r : Record) : Prop :=
  ∀ s, Effect A s (r s) (x.after s)

lemma Affects.mono {B : Set FrameId} {x : Eval α} {r : Record} (h : x.Affects A r)
    (hAB : A ⊆ B) : x.Affects B r :=
  fun s => (h s).mono hAB

lemma affects_pure (a : α) : (pure a : Eval α).Affects A .none :=
  fun s => .refl A s

lemma affects_fail (e : Error) : (fail e : Eval α).Affects A .none :=
  fun s => .refl A s

/-- The effects of a computation and of what follows it add up. -/
lemma Affects.bind {x : Eval α} {k : α → Eval β} {r : Record} {rk : α → Record}
    (hx : x.Affects A r) (hk : ∀ a, (k a).Affects A (rk a)) :
    (x >>= k).Affects A (x.recorded r rk) := by
  intro s
  have hs := hx s
  rcases h : x s with ⟨a, s'⟩ | ⟨e, s'⟩
  · rw [after_ok h] at hs
    have heq : (x >>= k).after s = (k a).after s' := by rw [after, after, bind_ok h]
    rw [recorded_ok h, heq]
    exact hs.trans (hk a s')
  · rw [after_error h] at hs
    rw [recorded_error h, after_error (bind_error h k)]
    exact hs

/-- What follows a computation may be without events. -/
lemma Affects.bind_quiet {x : Eval α} {k : α → Eval β} {r : Record} (hx : x.Affects A r)
    (hk : ∀ a, (k a).Affects A .none) : (x >>= k).Affects A r := by
  have h := hx.bind hk
  rwa [recorded_none] at h

/-- An expression is about to be evaluated. -/
lemma Affects.evaluates {x : Eval α} {r : Record} (h : x.Affects A r) (unit : Nat) (f : FrameId)
    (e : Expr) : x.Affects A (.cons (.evaluates unit f e) r) :=
  fun s => (h s).cons rfl trivial

/-- A statement is about to be executed. -/
lemma Affects.executes {x : Eval α} {r : Record} (h : x.Affects A r) (unit : Nat) (f : FrameId)
    (st : Stmt) : x.Affects A (.cons (.executes unit f st) r) :=
  fun s => (h s).cons rfl trivial

/-! ### Frames that are entered and left -/

variable {f : FrameId} {body : FrameId → Eval Flow} {s s' s'' : Store} {flow : Flow} {stop : Stop}

/-- A new frame whose statements end is left by the exit rule. -/
lemma inNewFrame_of_ok {exit : ExitRule}
    (h : body s.frames.size (s.extend f).2 = .ok flow s')
    (hexit : exit s.frames.size flow.value? s' = .ok () s'') :
    inNewFrame exit f body s = .ok flow s'' := by
  have hx : extend f s = .ok s.frames.size (s.extend f).2 := rfl
  rw [inNewFrame, bind_ok hx, inFrame, h]
  exact bind_ok hexit _

/-- A new frame whose statements stop early is left like any other. -/
lemma inNewFrame_of_error {exit : ExitRule}
    (h : body s.frames.size (s.extend f).2 = .error stop s')
    (hexit : exit s.frames.size none s' = .ok () s'') :
    inNewFrame exit f body s = .error stop s'' := by
  have hx : extend f s = .ok s.frames.size (s.extend f).2 := rfl
  rw [inNewFrame, bind_ok hx, inFrame, h]
  exact bind_ok hexit _

lemma inNewFrame_ok (h : body s.frames.size (s.extend f).2 = .ok flow s') :
    inNewFrame releaseOnExit f body s = .ok flow (s'.leave s.frames.size flow.value?) :=
  inNewFrame_of_ok h (Store.leave_eq _ _ _)

lemma inNewFrame_error (h : body s.frames.size (s.extend f).2 = .error stop s') :
    inNewFrame releaseOnExit f body s = .error stop (s'.leave s.frames.size none) :=
  inNewFrame_of_error h (Store.leave_eq _ _ _)

lemma newFrameEvents_ok (h : body s.frames.size (s.extend f).2 = .ok flow s')
    (k : Construct) (events : FrameId → Record) :
    newFrameEvents k f body events s =
      .enters s.frames.size k s ::
        (events s.frames.size (s.extend f).2 ++ [.leaves s.frames.size flow.value? s']) := by
  change _ :: (_ ++ [leaving s.frames.size (body s.frames.size (s.extend f).2)]) = _
  rw [h]
  rfl

lemma newFrameEvents_error (h : body s.frames.size (s.extend f).2 = .error stop s')
    (k : Construct) (events : FrameId → Record) :
    newFrameEvents k f body events s =
      .enters s.frames.size k s ::
        (events s.frames.size (s.extend f).2 ++ [.leaves s.frames.size none s']) := by
  change _ :: (_ ++ [leaving s.frames.size (body s.frames.size (s.extend f).2)]) = _
  rw [h]
  rfl

/-- Statements that affect their frame only are not seen from outside. -/
lemma Affects.inNewFrame {events : FrameId → Record}
    (h : ∀ inner, (body inner).Affects {inner} (events inner)) (k : Construct) (f : FrameId) :
    (inNewFrame releaseOnExit f body).Affects ∅ (newFrameEvents k f body events) := by
  intro s
  have hs := h s.frames.size (s.extend f).2
  rcases hb : body s.frames.size (s.extend f).2 with ⟨flow, s'⟩ | ⟨stop, s'⟩
  · rw [after_ok hb] at hs
    rw [newFrameEvents_ok hb, after_ok (inNewFrame_ok hb)]
    exact hs.newFrame k
  · rw [after_error hb] at hs
    rw [newFrameEvents_error hb, after_error (inNewFrame_error hb)]
    exact hs.newFrame k

/-! ### Single operations -/

lemma affects_declare {f : FrameId} (hf : f ∈ A) (name : String) (v : Value) (p : Position) :
    (declare f name v p).Affects A .none := by
  intro s
  rcases declare_cases f name v p s with ⟨-, h⟩ | h
  · rw [after_ok h]
    exact .quiet (s.extends_bind hf name v) (Nat.le_refl _)
  · rw [after_error h]
    exact .refl A s

lemma affects_declareAll {f : FrameId} (hf : f ∈ A) (p : Position) :
    ∀ (names : List String) (vs : List Value), (declareAll f p names vs).Affects A .none
  | name :: names, v :: vs => by
      rw [declareAll]
      exact (affects_declare hf name v p).bind_quiet fun _ =>
        affects_declareAll hf p names vs
  | [], vs => by
      rw [declareAll]
      · exact affects_pure ()
      · simp
  | name :: names, [] => by
      rw [declareAll]
      · exact affects_pure ()
      · simp

lemma affects_unary (op : UnaryOp) (p : Position) (v : Value) :
    (unary op p v).Affects A .none := by
  cases v with
  | number a => exact affects_pure _
  | function decl closure => exact affects_fail _
  | builtin b home => exact affects_fail _
  | undefined => exact affects_fail _

lemma affects_binary (op : BinaryOp) (left right : Expr) (v w : Value) :
    (binary op left right v w).Affects A .none := by
  cases v <;> cases w <;> first | exact affects_pure _ | exact affects_fail _

lemma affects_builtin (b : Builtin) (args : List Value) (p : Position) :
    (builtin b args p).Affects A .none := by
  intro s
  rcases builtin_cases b args p s with ⟨n, g, h⟩ | ⟨e, h⟩
  · rw [after_ok h]
    exact .quiet (.of_eq A rfl rfl) (Nat.le_refl _)
  · rw [after_error h]
    exact .refl A s

end Eval

/-! ### Evaluation and execution -/

lemma affects_identifier (caller : Caller) (f : FrameId) (p : Position) (name : String) :
    (evaluate caller f (.identifier p name)).Affects ∅ .none := by
  intro s
  have h := evaluate_identifier caller f p name s
  cases hv : s.get? f name with
  | some v =>
    rw [hv] at h
    rw [Eval.after_ok h]
    exact .refl ∅ s
  | none =>
    rw [hv] at h
    rw [Eval.after_error h]
    exact .refl ∅ s

section Run

variable {caller : Caller} {calls : CallRecord}

mutual

/-- Evaluating an expression changes no frame. -/
lemma affects_evaluate (hcall : ∀ v args p, (caller v args p).Affects ∅ (calls v args p))
    (unit : Nat) (f : FrameId) :
    ∀ e, (evaluate caller f e).Affects ∅ (evaluateEvents caller calls unit f e)
  | .number p x => by
      rw [evaluate, evaluateEvents]
      exact (Eval.affects_pure _).evaluates unit f _
  | .identifier p name => by
      rw [evaluateEvents]
      exact (affects_identifier caller f p name).evaluates unit f _
  | .unary p op target => by
      rw [evaluate, evaluateEvents]
      have htarget := affects_evaluate hcall unit f target
      have h := htarget.bind_quiet fun v => Eval.affects_unary op p v
      exact h.evaluates unit f _
  | .binary p op left right => by
      rw [evaluate, evaluateEvents]
      have hleft := affects_evaluate hcall unit f left
      have hright := affects_evaluate hcall unit f right
      have h := hleft.bind fun a => hright.bind_quiet fun b =>
        Eval.affects_binary op left right a b
      exact h.evaluates unit f _
  | .call p callee args => by
      rw [evaluate, evaluateEvents]
      have hcallee := affects_evaluate hcall unit f callee
      have hargs := affects_evaluateAll hcall unit f args
      have h := hcallee.bind fun v => hargs.bind fun vs => hcall v vs p
      exact h.evaluates unit f _

/-- Evaluating expressions changes no frame. -/
lemma affects_evaluateAll (hcall : ∀ v args p, (caller v args p).Affects ∅ (calls v args p))
    (unit : Nat) (f : FrameId) :
    ∀ es, (evaluateAll caller f es).Affects ∅ (evaluateAllEvents caller calls unit f es)
  | [] => by
      rw [evaluateAll, evaluateAllEvents]
      exact Eval.affects_pure _
  | e :: es => by
      rw [evaluateAll, evaluateAllEvents]
      have hfirst := affects_evaluate hcall unit f e
      have hrest := affects_evaluateAll hcall unit f es
      exact hfirst.bind fun v => hrest.bind_quiet fun vs => Eval.affects_pure _

end

lemma affects_evaluateOption
    (hcall : ∀ v args p, (caller v args p).Affects ∅ (calls v args p)) (unit : Nat)
    (f : FrameId) (e : Option Expr) :
    (evaluateOption caller f e).Affects ∅ (evaluateOptionEvents caller calls unit f e) := by
  cases e with
  | some e => exact affects_evaluate hcall unit f e
  | none => exact Eval.affects_pure _

/-- The frames that a statement may change, executed in `f`. -/
def Stmt.changes (f : FrameId) : Stmt → Set FrameId
  | .var _ _ _ => {f}
  | .func _ _ _ _ _ => {f}
  | _ => ∅

lemma Stmt.changes_subset (f : FrameId) (st : Stmt) : st.changes f ⊆ {f} := by
  cases st <;> simp [changes]

/-- A statement that declares nothing changes nothing. -/
lemma Stmt.changes_of_declared?_eq_none {st : Stmt} (h : st.declared? = none) (f : FrameId) :
    st.changes f = ∅ := by
  cases st <;> simp_all [changes, declared?]

mutual

/-- Executing a statement changes at most the frame it is executed in, and that
one only if it is a declaration. -/
lemma affects_execute (hcall : ∀ v args p, (caller v args p).Affects ∅ (calls v args p))
    (unit : Nat) (f : FrameId) :
    ∀ st, (execute releaseOnExit caller unit f st).Affects (st.changes f)
      (executeEvents releaseOnExit caller calls unit f st)
  | .var p name init => by
      rw [execute, executeEvents]
      have hinit := affects_evaluateOption hcall unit f init
      have h := (hinit.mono (Set.empty_subset {f})).bind_quiet fun v =>
        (Eval.affects_declare (Set.mem_singleton f) name v p).bind_quiet fun _ =>
          Eval.affects_pure Flow.normal
      exact h.executes unit f _
  | .ret p value => by
      rw [execute, executeEvents]
      have hvalue := affects_evaluateOption hcall unit f value
      have h := hvalue.bind_quiet fun v => Eval.affects_pure (Flow.returned v)
      exact h.executes unit f _
  | .func p name params bodyPos body => by
      rw [execute, executeEvents]
      have hdeclare := Eval.affects_declare (Set.mem_singleton f) name
        (.function ⟨unit, p, name, params, body⟩ f) p
      have h := hdeclare.bind_quiet fun _ => Eval.affects_pure Flow.normal
      exact h.executes unit f _
  | .block p bodyPos body => by
      rw [execute_block, executeEvents]
      have hbody := fun inner => affects_executeAll hcall unit inner body
      exact (Eval.Affects.inNewFrame hbody (.block unit p body) f).executes unit f _
  | .expr p e => by
      rw [execute, executeEvents]
      have he := affects_evaluate hcall unit f e
      have h := he.bind_quiet fun _ => Eval.affects_pure Flow.normal
      exact h.executes unit f _

/-- Executing statements changes no frame but the one they are executed in. -/
lemma affects_executeAll (hcall : ∀ v args p, (caller v args p).Affects ∅ (calls v args p))
    (unit : Nat) (f : FrameId) :
    ∀ sts, (executeAll releaseOnExit caller unit f sts).Affects {f}
      (executeAllEvents releaseOnExit caller calls unit f sts)
  | [] => by
      rw [executeAll, executeAllEvents]
      exact Eval.affects_pure _
  | st :: rest => by
      rw [executeAll, executeAllEvents]
      have hfirst := (affects_execute hcall unit f st).mono (st.changes_subset f)
      have hrest := affects_executeAll hcall unit f rest
      refine hfirst.bind fun flow => ?_
      cases flow with
      | normal => exact hrest
      | returned v => exact Eval.affects_pure _

end

/-- What a call runs in its new frame changes no other frame. -/
lemma affects_callBody (hcall : ∀ v args p, (caller v args p).Affects ∅ (calls v args p))
    (decl : Declaration) (args : List Value) (p : Position) (inner : FrameId) :
    (callBody releaseOnExit caller decl args p inner).Affects {inner}
      (callBodyEvents releaseOnExit caller calls decl args p inner) :=
  (Eval.affects_declareAll (Set.mem_singleton inner) p decl.params args).bind fun _ =>
    affects_executeAll hcall decl.unit inner decl.body

/-- Calling a declared function changes no frame. -/
lemma affects_callFunction
    (hcall : ∀ v args p, (caller v args p).Affects ∅ (calls v args p)) (decl : Declaration)
    (closure : FrameId) (args : List Value) (p : Position) :
    (callFunction releaseOnExit caller decl closure args p).Affects ∅
      (callFunctionEvents releaseOnExit caller calls decl closure args p) := by
  by_cases h : args.length < decl.params.length
  · rw [callFunction, if_pos h, callFunctionEvents, if_pos h]
    exact Eval.affects_fail _
  · rw [callFunction_of_le (Nat.not_lt.1 h), callFunctionEvents, if_neg h]
    refine Eval.Affects.bind_quiet ?_ fun flow => Eval.affects_pure _
    exact Eval.Affects.inNewFrame (affects_callBody hcall decl args p) (.function decl) closure

end Run

/-- **Calls change no frame**, however deep they go. -/
lemma affects_call (n : Nat) (v : Value) (args : List Value) (p : Position) :
    (call releaseOnExit n v args p).Affects ∅ (callEvents releaseOnExit n v args p) := by
  induction n generalizing v args p with
  | zero => exact fun s => .refl ∅ s
  | succ n ih =>
    cases v with
    | function decl closure => exact affects_callFunction ih decl closure args p
    | number x => exact Eval.affects_fail _
    | builtin b home => exact Eval.affects_builtin b args p
    | undefined => exact Eval.affects_fail _

/-! ### Units and sessions -/

lemma affects_executeUnit (limit unit : Nat) (root : FrameId) (sts : List Stmt)
    (last : Option Value) :
    (executeUnit releaseOnExit (call releaseOnExit limit) unit root sts last).Affects {root}
      (executeUnitEvents releaseOnExit (call releaseOnExit limit)
        (callEvents releaseOnExit limit) unit root sts) := by
  induction sts generalizing last with
  | nil => exact Eval.affects_pure _
  | cons st rest ih =>
    by_cases h : ∃ p e, st = .expr p e
    · obtain ⟨p, e, rfl⟩ := h
      rw [executeUnit, executeUnitEvents]
      have hfirst := (affects_evaluate (affects_call limit) unit root e).mono
        (Set.empty_subset {root})
      exact hfirst.bind fun v => ih (some v)
    · have hne : ∀ p e, st ≠ .expr p e := fun p e he => h ⟨p, e, he⟩
      rw [executeUnit_cons hne, executeUnitEvents_cons hne]
      have hfirst := (affects_execute (affects_call limit) unit root st).mono
        (st.changes_subset root)
      refine hfirst.bind fun flow => ?_
      cases flow with
      | normal => exact ih none
      | returned v => exact Eval.affects_pure _

/-- A program leaves the store that its statements leave. -/
lemma after_runProgram (limit : Nat) (root : FrameId) (p : Program) (s : Store) :
    (runProgram releaseOnExit limit root p).after s =
      (executeUnit releaseOnExit (call releaseOnExit limit) s.units root p.body none).after
        s.newUnit.2 := by
  rw [Eval.after, Eval.after, runProgram_apply]
  cases executeUnit releaseOnExit (call releaseOnExit limit) s.units root p.body none
    s.newUnit.2 <;> rfl

lemma affects_runProgram (limit : Nat) (root : FrameId) (p : Program) :
    (runProgram releaseOnExit limit root p).Affects {root}
      (runProgramEvents releaseOnExit limit root p) := by
  intro s
  have hrun := affects_executeUnit limit s.units root p.body none s.newUnit.2
  rw [after_runProgram]
  exact hrun.newUnit p

lemma affects_interpret (limit : Nat) (root : FrameId) (source : String) :
    (interpret releaseOnExit limit root source).Affects {root}
      (interpretEvents releaseOnExit limit root source) := by
  rw [interpret, interpretEvents]
  cases parse source with
  | error e => exact Eval.affects_fail e
  | ok p => exact affects_runProgram limit root p

/-- **The effect of a session**: only the root frame gains names. -/
theorem Session.effect (s : Session) (limit : Nat) (sources : List String) :
    Effect {s.root} s.store (s.events releaseOnExit limit sources)
      (s.after releaseOnExit limit sources).store := by
  induction sources generalizing s with
  | nil => exact .refl _ _
  | cons source rest ih =>
    have h := affects_interpret limit s.root source s.store
    rw [← Session.store_step] at h
    have hrest := ih (s.step releaseOnExit limit source).2
    rw [Session.root_step] at hrest
    exact h.trans hrest

end ClosureCalc
