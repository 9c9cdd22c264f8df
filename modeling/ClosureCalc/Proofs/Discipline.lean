/-
Disciplines of a run.

A discipline is an invariant of stores, with what it asks of the values that
are around and of the places where a program is evaluated and executed. If
single operations keep it, every run does.

* `Node`: a node of a program, an expression or a statement, with its parts.
* `Discipline`: the invariant; `Discipline.Sound`: what single operations have
  to keep.
* `Discipline.Keeps`: a computation keeps the discipline, and at each of its
  events the discipline is observed.
* `Discipline.Sound.keeps_call`, `Discipline.Sound.keeps_session`: a sound discipline is
  kept by every call and by every session.
-/
import ClosureCalc.Proofs.Affects

namespace ClosureCalc

/-! ### Nodes -/

/-- A node of a program. -/
inductive Node where
  | expr (e : Expr)
  | stmt (st : Stmt)

/-- The expressions that an expression is made of. -/
def Expr.parts : Expr → List Expr
  | .number _ _ => []
  | .identifier _ _ => []
  | .unary _ _ target => [target]
  | .binary _ _ left right => [left, right]
  | .call _ callee args => callee :: args

/-- The expressions of a statement itself. -/
def Stmt.parts : Stmt → List Expr
  | .var _ _ init => init.toList
  | .ret _ value => value.toList
  | .expr _ e => [e]
  | .func _ _ _ _ _ => []
  | .block _ _ _ => []

/-! ### Disciplines -/

/-- **Later stores**: frames stay where they are. -/
structure Store.Later (s s' : Store) : Prop where
  frames_le : s.frames.size ≤ s'.frames.size
  chain_eq : ∀ g < s.frames.size, s'.chain g = s.chain g

lemma Store.Extends.later {A : Set FrameId} {s s' : Store} (h : s.Extends A s') :
    s.Later s' :=
  ⟨h.frames_le, fun _ hg => h.chain_eq hg⟩

lemma Store.Later.refl (s : Store) : s.Later s :=
  ⟨Nat.le_refl _, fun _ _ => rfl⟩

lemma Store.Later.trans {s s' s'' : Store} (h : s.Later s') (h' : s'.Later s'') : s.Later s'' :=
  ⟨h.frames_le.trans h'.frames_le, fun g hg =>
    (h'.chain_eq g (hg.trans_le h.frames_le)).trans (h.chain_eq g hg)⟩

lemma Store.later_addFrame (s : Store) (outer : List FrameId) :
    s.Later (s.addFrame outer).2 := by
  refine ⟨?_, fun g hg => ?_⟩
  · simp [addFrame]
  · rw [chain, chain, frame_addFrame, if_neg hg.ne]

lemma Store.later_leave (s : Store) (f : FrameId) (result : Option Value) :
    s.Later (s.leave f result) := by
  refine ⟨(s.size_frames_leave f result).ge, fun g _ => ?_⟩
  rw [chain, chain, outer_leave]

/-- **A discipline** of runs with certain events: what holds of a store, which
values it admits, and in which frame a node of a unit may be evaluated or
executed. -/
structure Discipline where
  Happens : Event → Prop
  Holds : Store → Prop
  Admits : Value → Store → Prop
  Places : Nat → FrameId → Node → Store → Prop

namespace Discipline

/-- The discipline is observed at an event. -/
def Observes (D : Discipline) : Event → Prop
  | .begins _ _ s => D.Holds s
  | .evaluates unit f e s => D.Holds s ∧ D.Places unit f (.expr e) s
  | .executes unit f st s => D.Holds s ∧ D.Places unit f (.stmt st) s
  | .enters _ _ s => D.Holds s
  | .leaves _ result s => D.Holds s ∧ ∀ v, result = some v → D.Admits v s

/-- **Sound disciplines**: single operations keep them. -/
structure Sound (D : Discipline) : Prop where
  plain : ∀ {v s}, (∀ decl closure, v ≠ .function decl closure) → D.Admits v s
  slot : ∀ {s}, D.Holds s → ∀ i, D.Admits (s.slot i) s
  admits_later : ∀ {v s s'}, D.Holds s → s.Later s' → D.Admits v s → D.Admits v s'
  places_later : ∀ {unit f node s s'}, D.Holds s → s.Later s' →
    D.Places unit f node s → D.Places unit f node s'
  places_part : ∀ {unit f e e' s}, D.Places unit f (.expr e) s → e' ∈ e.parts →
    D.Places unit f (.expr e') s
  places_expr : ∀ {unit f st e s}, D.Places unit f (.stmt st) s → e ∈ st.parts →
    D.Places unit f (.expr e) s
  same : ∀ {s s'}, D.Holds s → s'.frames = s.frames → s'.slots = s.slots → D.Holds s'
  leave : ∀ {s}, D.Holds s → ∀ f result, D.Holds (s.leave f result)
  closure : ∀ {unit f p name params bodyPos body s},
    D.Places unit f (.stmt (.func p name params bodyPos body)) s →
      D.Admits (.function ⟨unit, p, name, params, body⟩ f) s
  declare : ∀ {unit f st name v s}, D.Holds s → D.Places unit f (.stmt st) s →
    st.declared? = some name → s.canDeclare f name = true → D.Admits v s →
      D.Holds (s.bind f name v)
  param : ∀ {f decl name v s s₀}, D.Happens (.enters f (.function decl) s₀) → D.Holds s →
    name ∈ decl.params → s.canDeclare f name = true → D.Admits v s → D.Holds (s.bind f name v)
  enter_block : ∀ {unit f p bodyPos body s}, D.Holds s →
    D.Places unit f (.stmt (.block p bodyPos body)) s →
    D.Happens (.enters s.frames.size (.block unit p body) s) →
      D.Holds (s.extend f).2 ∧
        ∀ st ∈ body, D.Places unit s.frames.size (.stmt st) (s.extend f).2
  enter_call : ∀ {decl closure s}, D.Holds s → D.Admits (.function decl closure) s →
    D.Happens (.enters s.frames.size (.function decl) s) →
      D.Holds (s.extend closure).2 ∧
        ∀ st ∈ decl.body, D.Places decl.unit s.frames.size (.stmt st) (s.extend closure).2

section Keeps

variable {α β : Type} {D : Discipline} {s : Store} {A : Set FrameId}
variable {x : Eval α} {k : α → Eval β} {r : Record} {rk : α → Record}
variable {Q : α → Store → Prop} {Q' : β → Store → Prop}

/-- The discipline holds at the end of a computation, and so does a property of
its value. -/
def Ends (D : Discipline) (Q : α → Store → Prop) : EStateM.Result Stop Store α → Prop
  | .ok a s => D.Holds s ∧ Q a s
  | .error _ s => D.Holds s

/-- The discipline holds behind the computation, whichever way it ends. -/
lemma Ends.holds_after (h : D.Ends Q (x s)) : D.Holds (x.after s) := by
  rcases hx : x s with ⟨a, s'⟩ | ⟨stop, s'⟩
  · rw [hx] at h
    rw [Eval.after_ok hx]
    exact h.1
  · rw [hx] at h
    rw [Eval.after_error hx]
    exact h

/-- **A computation keeps a discipline** from a store, if its events may
happen: the discipline is observed at all of them and holds at the end. -/
def Keeps (D : Discipline) (x : Eval α) (r : Record) (Q : α → Store → Prop) (s : Store) :
    Prop :=
  D.Holds s → (∀ ev ∈ r s, D.Happens ev) → (∀ ev ∈ r s, D.Observes ev) ∧ D.Ends Q (x s)

lemma keeps_pure {a : α} (h : Q a s) : D.Keeps (pure a : Eval α) .none Q s :=
  fun hs _ => ⟨by simp [Record.none], hs, h⟩

lemma keeps_fail (e : Error) : D.Keeps (Eval.fail e : Eval α) .none Q s :=
  fun hs _ => ⟨by simp [Record.none], hs⟩

/-- What follows a computation starts from a later store. -/
lemma Keeps.bind (hx : D.Keeps x r Q s) (ha : x.Affects A r)
    (hk : ∀ a s', D.Holds s → s.Later s' → Q a s' → D.Keeps (k a) (rk a) Q' s') :
    D.Keeps (x >>= k) (x.recorded r rk) Q' s := by
  intro hs hT
  have hlater := (ha s).grows.later
  rcases h : x s with ⟨a, s'⟩ | ⟨stop, s'⟩
  · rw [Eval.recorded_ok h] at hT
    rw [Eval.recorded_ok h, Eval.bind_ok h]
    rw [Eval.after_ok h] at hlater
    obtain ⟨hobs, hq⟩ := hx hs fun ev hev => hT ev (List.mem_append_left _ hev)
    rw [h] at hq
    obtain ⟨hobs', hq'⟩ :=
      hk a s' hs hlater hq.2 hq.1 fun ev hev => hT ev (List.mem_append_right _ hev)
    refine ⟨fun ev hev => ?_, hq'⟩
    rcases List.mem_append.1 hev with hev | hev
    · exact hobs ev hev
    · exact hobs' ev hev
  · rw [Eval.recorded_error h] at hT
    rw [Eval.recorded_error h, Eval.bind_error h]
    obtain ⟨hobs, hq⟩ := hx hs hT
    rw [h] at hq
    exact ⟨hobs, hq⟩

lemma Keeps.bind_quiet (hx : D.Keeps x r Q s) (ha : x.Affects A r)
    (hk : ∀ a s', D.Holds s → s.Later s' → Q a s' → D.Keeps (k a) .none Q' s') :
    D.Keeps (x >>= k) r Q' s := by
  have h := hx.bind ha hk
  rwa [Eval.recorded_none] at h

/-- An event at the beginning. -/
lemma Keeps.cons {ev : Store → Event} (hev : D.Holds s → D.Observes (ev s))
    (hx : D.Keeps x r Q s) : D.Keeps x (.cons ev r) Q s := by
  intro hs hT
  obtain ⟨hobs, hq⟩ := hx hs fun ev' hev' => hT ev' (List.mem_cons_of_mem _ hev')
  refine ⟨fun ev' hev' => ?_, hq⟩
  rcases List.mem_cons.1 hev' with rfl | hev'
  · exact hev hs
  · exact hobs ev' hev'

/-- The value of statements that returned is admitted. -/
def AdmitsFlow (D : Discipline) (flow : Flow) (s : Store) : Prop :=
  ∀ v, flow.value? = some v → D.Admits v s

/-- Statements in a new frame. The frame may be entered, since it is entered
during the run. -/
lemma Keeps.inNewFrame (hD : D.Sound) {body : FrameId → Eval Flow}
    {events : FrameId → Record} {construct : Construct} {f : FrameId}
    (henter : D.Holds s → D.Happens (.enters s.frames.size construct s) →
      D.Holds (s.extend f).2 ∧
        D.Keeps (body s.frames.size) (events s.frames.size) D.AdmitsFlow (s.extend f).2) :
    D.Keeps (Eval.inNewFrame releaseOnExit f body) (Eval.newFrameEvents construct f body events)
      D.AdmitsFlow s := by
  intro hs hT
  have hhappens : D.Happens (.enters s.frames.size construct s) := hT _ List.mem_cons_self
  obtain ⟨hs₁, hbody⟩ := henter hs hhappens
  have hobs := hbody hs₁ fun ev hev =>
    hT ev (List.mem_cons_of_mem _ (List.mem_append_left _ hev))
  rcases hb : body s.frames.size (s.extend f).2 with ⟨flow, s'⟩ | ⟨stop, s'⟩
  · rw [hb] at hobs
    obtain ⟨hobs, hs', hflow⟩ := hobs
    rw [Eval.newFrameEvents_ok hb, Eval.inNewFrame_ok hb]
    refine ⟨fun ev hev => ?_, hD.leave hs' _ _, fun v hv => ?_⟩
    · simp only [List.mem_cons, List.mem_append, List.not_mem_nil, or_false] at hev
      rcases hev with rfl | hev | rfl
      · exact hs
      · exact hobs ev hev
      · exact ⟨hs', hflow⟩
    · exact hD.admits_later hs' (s'.later_leave _ _) (hflow v hv)
  · rw [hb] at hobs
    obtain ⟨hobs, hs'⟩ := hobs
    rw [Eval.newFrameEvents_error hb, Eval.inNewFrame_error hb]
    refine ⟨fun ev hev => ?_, hD.leave hs' _ _⟩
    simp only [List.mem_cons, List.mem_append, List.not_mem_nil, or_false] at hev
    rcases hev with rfl | hev | rfl
    · exact hs
    · exact hobs ev hev
    · exact ⟨hs', by simp⟩

/-! ### Single operations -/

lemma keeps_declare {f : FrameId} {name : String} {v : Value} {p : Position}
    (h : D.Holds s → s.canDeclare f name = true → D.Holds (s.bind f name v)) :
    D.Keeps (Eval.declare f name v p) .none (fun _ _ => True) s := by
  intro hs _
  refine ⟨by simp [Record.none], ?_⟩
  rcases declare_cases f name v p s with ⟨hc, hd⟩ | hd
  · rw [hd]
    exact ⟨h hs hc, trivial⟩
  · rw [hd]
    exact hs

/-- The parameters of a function are declared in the frame entered for it. -/
lemma keeps_declareAll (hD : D.Sound) {f : FrameId} {decl : Declaration} {s₀ : Store}
    (hf : D.Happens (.enters f (.function decl) s₀)) (p : Position) :
    ∀ {names : List String} {vs : List Value} {s : Store}, (∀ name ∈ names, name ∈ decl.params) →
      (∀ v ∈ vs, D.Admits v s) →
      D.Keeps (Eval.declareAll f p names vs) .none (fun _ _ => True) s
  | name :: names, v :: vs, s, hn, hvs => by
      rw [Eval.declareAll]
      refine (keeps_declare fun hs hc => hD.param hf hs (hn name (by simp)) hc
        (hvs v (by simp))).bind_quiet (Eval.affects_declare (Set.mem_singleton f) name v p)
        fun _ s' hs hlater _ => ?_
      refine keeps_declareAll hD hf p (fun n h => hn n (by simp [h])) fun w hw => ?_
      exact hD.admits_later hs hlater (hvs w (by simp [hw]))
  | [], vs, s, _, _ => by
      rw [Eval.declareAll]
      · exact keeps_pure trivial
      · simp
  | name :: names, [], s, _, _ => by
      rw [Eval.declareAll]
      · exact keeps_pure trivial
      · simp

lemma keeps_unary (hD : D.Sound) (op : UnaryOp) (p : Position) (v : Value) :
    D.Keeps (Eval.unary op p v) .none D.Admits s := by
  cases v with
  | number a => exact keeps_pure (hD.plain (by simp))
  | function decl closure => exact keeps_fail _
  | builtin b home => exact keeps_fail _
  | undefined => exact keeps_fail _

lemma keeps_binary (hD : D.Sound) (op : BinaryOp) (left right : Expr) (v w : Value) :
    D.Keeps (Eval.binary op left right v w) .none D.Admits s := by
  cases v <;> cases w <;>
    first
    | exact keeps_pure (hD.plain (by simp))
    | exact keeps_fail _

lemma keeps_builtin (hD : D.Sound) (b : Builtin) (args : List Value) (p : Position) :
    D.Keeps (Eval.builtin b args p) .none D.Admits s := by
  intro hs _
  refine ⟨by simp [Record.none], ?_⟩
  rcases builtin_cases b args p s with ⟨n, g, h⟩ | ⟨e, h⟩
  · rw [h]
    exact ⟨hD.same hs rfl rfl, hD.plain (by simp)⟩
  · rw [h]
    exact hs

/-- A name stands for a value in a slot. -/
lemma keeps_identifier (hD : D.Sound) (caller : Caller) (f : FrameId) (p : Position)
    (name : String) : D.Keeps (evaluate caller f (.identifier p name)) .none D.Admits s := by
  intro hs _
  refine ⟨by simp [Record.none], ?_⟩
  rw [evaluate_identifier]
  cases hv : s.get? f name with
  | none => exact hs
  | some v =>
    obtain ⟨i, -, rfl⟩ := Option.map_eq_some_iff.1 hv
    exact ⟨hs, hD.slot hs i⟩

end Keeps

/-! ### Evaluation and execution -/

section Run

variable {D : Discipline} {caller : Caller} {calls : CallRecord}

/-- **Calls keep a discipline**: they change no frame, and admitted values yield
admitted values. -/
structure Calls (D : Discipline) (caller : Caller) (calls : CallRecord) : Prop where
  affects : ∀ v args p, (caller v args p).Affects ∅ (calls v args p)
  keeps : ∀ v args p s, D.Admits v s → (∀ w ∈ args, D.Admits w s) →
    D.Keeps (caller v args p) (calls v args p) D.Admits s

/-- The statements of a program that was read from a text may be executed in a
root frame when the program begins. -/
def Begins (D : Discipline) (root : FrameId) : Prop :=
  ∀ unit source p s, parse source = .ok p → D.Happens (.begins unit p s) → D.Holds s →
    ∀ st ∈ p.body, D.Places unit root (.stmt st) s

/-- The same for the program of one text. -/
def BeginsWith (D : Discipline) (root : FrameId) (source : String) : Prop :=
  ∀ unit p s, parse source = .ok p → D.Happens (.begins unit p s) → D.Holds s →
    ∀ st ∈ p.body, D.Places unit root (.stmt st) s

lemma Begins.source {root : FrameId} (h : D.Begins root) (source : String) :
    D.BeginsWith root source :=
  fun unit p s hp => h unit source p s hp

namespace Sound

mutual

/-- Expressions keep the discipline. -/
lemma keeps_evaluate (hD : D.Sound) (hcall : D.Calls caller calls) {unit : Nat} {f : FrameId} :
    ∀ {e s}, D.Places unit f (.expr e) s →
      D.Keeps (evaluate caller f e) (evaluateEvents caller calls unit f e) D.Admits s
  | .number p x, s, he => by
      rw [evaluate, evaluateEvents]
      exact (keeps_pure (hD.plain (by simp))).cons fun hs => ⟨hs, he⟩
  | .identifier p name, s, he => by
      rw [evaluateEvents]
      exact (keeps_identifier hD caller f p name).cons fun hs => ⟨hs, he⟩
  | .unary p op target, s, he => by
      rw [evaluate, evaluateEvents]
      refine Keeps.cons (fun hs => ⟨hs, he⟩) ?_
      refine (hD.keeps_evaluate hcall (hD.places_part he (by simp [Expr.parts]))).bind_quiet
        (affects_evaluate hcall.affects unit f target) fun v s' _ _ _ => ?_
      exact keeps_unary hD op p v
  | .binary p op left right, s, he => by
      rw [evaluate, evaluateEvents]
      refine Keeps.cons (fun hs => ⟨hs, he⟩) ?_
      refine (hD.keeps_evaluate hcall (hD.places_part he (by simp [Expr.parts]))).bind
        (affects_evaluate hcall.affects unit f left) fun a s' hs hlater _ => ?_
      have hright : D.Places unit f (.expr right) s := hD.places_part he (by simp [Expr.parts])
      refine (hD.keeps_evaluate hcall (hD.places_later hs hlater hright)).bind_quiet
        (affects_evaluate hcall.affects unit f right) fun b s'' _ _ _ => ?_
      exact keeps_binary hD op left right a b
  | .call p callee args, s, he => by
      rw [evaluate, evaluateEvents]
      refine Keeps.cons (fun hs => ⟨hs, he⟩) ?_
      refine (hD.keeps_evaluate hcall (hD.places_part he (by simp [Expr.parts]))).bind
        (affects_evaluate hcall.affects unit f callee) fun v s' hs hlater hv => ?_
      have hargs : ∀ e ∈ args, D.Places unit f (.expr e) s' := fun e h =>
        hD.places_later hs hlater (hD.places_part he (by simp [Expr.parts, h]))
      refine (hD.keeps_evaluateAll hcall hargs).bind (affects_evaluateAll hcall.affects unit f args)
        fun vs s'' hs' hlater' hvs => ?_
      exact hcall.keeps v vs p s'' (hD.admits_later hs' hlater' hv) hvs

/-- Lists of expressions keep the discipline. -/
lemma keeps_evaluateAll (hD : D.Sound) (hcall : D.Calls caller calls) {unit : Nat} {f : FrameId} :
    ∀ {es s}, (∀ e ∈ es, D.Places unit f (.expr e) s) →
      D.Keeps (evaluateAll caller f es) (evaluateAllEvents caller calls unit f es)
        (fun vs s' => ∀ v ∈ vs, D.Admits v s') s
  | [], s, _ => by
      rw [evaluateAll, evaluateAllEvents]
      exact keeps_pure (by simp)
  | e :: es, s, he => by
      rw [evaluateAll, evaluateAllEvents]
      refine (hD.keeps_evaluate hcall (he e (by simp))).bind
        (affects_evaluate hcall.affects unit f e) fun v s' hs hlater hv => ?_
      have hes : ∀ e' ∈ es, D.Places unit f (.expr e') s' := fun e' h =>
        hD.places_later hs hlater (he e' (by simp [h]))
      refine (hD.keeps_evaluateAll hcall hes).bind_quiet
        (affects_evaluateAll hcall.affects unit f es) fun vs s'' hs' hlater' hvs => ?_
      refine keeps_pure fun w hw => ?_
      rcases List.mem_cons.1 hw with rfl | hw
      · exact hD.admits_later hs' hlater' hv
      · exact hvs w hw

end

lemma keeps_evaluateOption (hD : D.Sound) (hcall : D.Calls caller calls) {unit : Nat} {f : FrameId}
    {e : Option Expr} {s : Store} (he : ∀ e' ∈ e.toList, D.Places unit f (.expr e') s) :
    D.Keeps (evaluateOption caller f e) (evaluateOptionEvents caller calls unit f e)
      D.Admits s := by
  cases e with
  | some e => exact hD.keeps_evaluate hcall (he e (by simp))
  | none => exact keeps_pure (hD.plain (by simp))

mutual

/-- Statements keep the discipline. -/
lemma keeps_execute (hD : D.Sound) (hcall : D.Calls caller calls) {unit : Nat} {f : FrameId} :
    ∀ {st s}, D.Places unit f (.stmt st) s →
      D.Keeps (execute releaseOnExit caller unit f st)
        (executeEvents releaseOnExit caller calls unit f st) D.AdmitsFlow s
  | .var p name init, s, hst => by
      rw [execute, executeEvents]
      refine Keeps.cons (fun hs => ⟨hs, hst⟩) ?_
      refine (hD.keeps_evaluateOption hcall fun e he => hD.places_expr hst he).bind_quiet
        (affects_evaluateOption hcall.affects unit f init) fun v s' hs hlater hv => ?_
      refine (keeps_declare fun hs' hc =>
        hD.declare hs' (hD.places_later hs hlater hst) rfl hc hv).bind_quiet
        (Eval.affects_declare (Set.mem_singleton f) name v p) fun _ s'' _ _ _ => ?_
      exact keeps_pure (by simp [AdmitsFlow, Flow.value?])
  | .ret p value, s, hst => by
      rw [execute, executeEvents]
      refine Keeps.cons (fun hs => ⟨hs, hst⟩) ?_
      refine (hD.keeps_evaluateOption hcall fun e he => hD.places_expr hst he).bind_quiet
        (affects_evaluateOption hcall.affects unit f value) fun v s' _ _ hv => ?_
      refine keeps_pure fun w hw => ?_
      cases hw
      exact hv
  | .func p name params bodyPos body, s, hst => by
      rw [execute, executeEvents]
      refine Keeps.cons (fun hs => ⟨hs, hst⟩) ?_
      -- the closure of the new function is the current frame
      refine (keeps_declare fun hs hc => hD.declare hs hst rfl hc (hD.closure hst)).bind_quiet
        (Eval.affects_declare (Set.mem_singleton f) name _ p) fun _ s'' _ _ _ => ?_
      exact keeps_pure (by simp [AdmitsFlow, Flow.value?])
  | .block p bodyPos body, s, hst => by
      rw [execute_block, executeEvents]
      refine Keeps.cons (fun hs => ⟨hs, hst⟩) ?_
      refine Keeps.inNewFrame hD fun hs hhappens => ?_
      obtain ⟨hs₁, hbody⟩ := hD.enter_block hs hst hhappens
      exact ⟨hs₁, hD.keeps_executeAll hcall hbody⟩
  | .expr p e, s, hst => by
      rw [execute, executeEvents]
      refine Keeps.cons (fun hs => ⟨hs, hst⟩) ?_
      refine (hD.keeps_evaluate hcall (hD.places_expr hst (by simp [Stmt.parts]))).bind_quiet
        (affects_evaluate hcall.affects unit f e) fun v s' _ _ _ => ?_
      exact keeps_pure (by simp [AdmitsFlow, Flow.value?])

/-- Lists of statements keep the discipline. -/
lemma keeps_executeAll (hD : D.Sound) (hcall : D.Calls caller calls) {unit : Nat} {f : FrameId} :
    ∀ {sts s}, (∀ st ∈ sts, D.Places unit f (.stmt st) s) →
      D.Keeps (executeAll releaseOnExit caller unit f sts)
        (executeAllEvents releaseOnExit caller calls unit f sts) D.AdmitsFlow s
  | [], s, _ => by
      rw [executeAll, executeAllEvents]
      exact keeps_pure (by simp [AdmitsFlow, Flow.value?])
  | st :: rest, s, hst => by
      rw [executeAll, executeAllEvents]
      refine (hD.keeps_execute hcall (hst st (by simp))).bind
        ((affects_execute hcall.affects unit f st).mono (st.changes_subset f))
        fun flow s' hs hlater hflow => ?_
      cases flow with
      | normal =>
        refine hD.keeps_executeAll hcall fun st' h => ?_
        exact hD.places_later hs hlater (hst st' (by simp [h]))
      | returned v => exact keeps_pure hflow

end

/-- Calls of declared functions keep the discipline. The new frame lies inside
the frame that the function was declared in, whoever calls it. -/
lemma keeps_callFunction (hD : D.Sound) (hcall : D.Calls caller calls) {decl : Declaration}
    {closure : FrameId} {args : List Value} {p : Position} {s : Store}
    (hv : D.Admits (.function decl closure) s) (hargs : ∀ w ∈ args, D.Admits w s) :
    D.Keeps (callFunction releaseOnExit caller decl closure args p)
      (callFunctionEvents releaseOnExit caller calls decl closure args p) D.Admits s := by
  by_cases h : args.length < decl.params.length
  · rw [callFunction, if_pos h, callFunctionEvents, if_pos h]
    exact keeps_fail _
  · rw [callFunction_of_le (Nat.not_lt.1 h), callFunctionEvents, if_neg h]
    refine Keeps.bind_quiet (Keeps.inNewFrame hD fun hs hhappens => ?_)
      (Eval.Affects.inNewFrame (affects_callBody hcall.affects decl args p) (.function decl)
        closure) fun flow s' _ _ hflow => ?_
    · obtain ⟨hs₁, hbody⟩ := hD.enter_call hs hv hhappens
      have hargs₁ : ∀ w ∈ args, D.Admits w (s.extend closure).2 := fun w hw =>
        hD.admits_later hs (s.extends_extend ∅ closure).later (hargs w hw)
      refine ⟨hs₁, (keeps_declareAll hD hhappens p (fun _ h => h) hargs₁).bind
        (Eval.affects_declareAll (Set.mem_singleton _) p _ args) fun _ s' _ hlater _ => ?_⟩
      exact hD.keeps_executeAll hcall fun st hst => hD.places_later hs₁ hlater (hbody st hst)
    · refine keeps_pure ?_
      cases flow with
      | normal => exact hD.plain (by simp [Flow.value?])
      | returned v => exact hflow v rfl

/-- **Calls keep a sound discipline**, however deep they go. -/
theorem keeps_call (hD : D.Sound) (n : Nat) :
    D.Calls (call releaseOnExit n) (callEvents releaseOnExit n) := by
  induction n with
  | zero =>
    refine ⟨affects_call 0, fun v args p s _ _ hs _ => ⟨?_, hs⟩⟩
    simp [callEvents, Record.none]
  | succ n ih =>
    refine ⟨affects_call (n + 1), fun v args p s hv hargs => ?_⟩
    cases v with
    | function decl closure => exact hD.keeps_callFunction ih hv hargs
    | number x => exact keeps_fail _
    | builtin b home => exact keeps_builtin hD b args p
    | undefined => exact keeps_fail _

/-! ### Units and sessions -/

lemma keeps_executeUnit (hD : D.Sound) (limit : Nat) {unit : Nat} {root : FrameId}
    {sts : List Stmt} (last : Option Value) {s : Store}
    (hst : ∀ st ∈ sts, D.Places unit root (.stmt st) s) :
    D.Keeps (executeUnit releaseOnExit (call releaseOnExit limit) unit root sts last)
      (executeUnitEvents releaseOnExit (call releaseOnExit limit)
        (callEvents releaseOnExit limit) unit root sts) (fun _ _ => True) s := by
  have hcall := hD.keeps_call limit
  induction sts generalizing last s with
  | nil => exact keeps_pure trivial
  | cons st rest ih =>
    have hrest : ∀ s', D.Holds s → s.Later s' →
        ∀ st ∈ rest, D.Places unit root (.stmt st) s' := fun s' hs hlater st' h =>
      hD.places_later hs hlater (hst st' (List.mem_cons_of_mem st h))
    by_cases h : ∃ p e, st = .expr p e
    · obtain ⟨p, e, rfl⟩ := h
      have he := hD.places_expr (hst (.expr p e) (by simp)) (e := e) (by simp [Stmt.parts])
      rw [executeUnit, executeUnitEvents]
      exact (hD.keeps_evaluate hcall he).bind (affects_evaluate hcall.affects unit root e)
        fun v s' hs hlater _ => ih _ (hrest s' hs hlater)
    · have hne : ∀ p e, st ≠ .expr p e := fun p e he => h ⟨p, e, he⟩
      rw [executeUnit_cons hne, executeUnitEvents_cons hne]
      refine (hD.keeps_execute hcall (hst st (by simp))).bind
        ((affects_execute hcall.affects unit root st).mono (st.changes_subset root))
        fun flow s' hs hlater _ => ?_
      cases flow with
      | normal => exact ih _ (hrest s' hs hlater)
      | returned v => exact keeps_pure trivial

variable {root : FrameId}

lemma keeps_runProgram (hD : D.Sound) {source : String} (hroot : D.BeginsWith root source)
    (limit : Nat) {p : Program} (hp : parse source = .ok p) {s : Store} :
    D.Keeps (runProgram releaseOnExit limit root p)
      (runProgramEvents releaseOnExit limit root p) (fun _ _ => True) s := by
  intro hs hT
  have hnew : D.Holds s.newUnit.2 := hD.same hs rfl rfl
  have hst := hroot s.units p s.newUnit.2 hp (hT _ List.mem_cons_self) hnew
  obtain ⟨hobs, hrun⟩ := hD.keeps_executeUnit limit none hst hnew
    fun ev hev => hT ev (List.mem_cons_of_mem _ hev)
  refine ⟨fun ev hev => ?_, ?_⟩
  · rcases List.mem_cons.1 hev with rfl | hev
    · exact hnew
    · exact hobs ev hev
  · rw [runProgram_apply]
    rcases hx : executeUnit releaseOnExit (call releaseOnExit limit)
      s.units root p.body none s.newUnit.2 with ⟨value, s'⟩ | ⟨stop, s'⟩
    · rw [hx] at hrun
      exact ⟨hrun.1, trivial⟩
    · rwa [hx] at hrun

lemma keeps_interpret (hD : D.Sound) {source : String} (hroot : D.BeginsWith root source)
    (limit : Nat) {s : Store} :
    D.Keeps (interpret releaseOnExit limit root source)
      (interpretEvents releaseOnExit limit root source) (fun _ _ => True) s := by
  rw [interpret, interpretEvents]
  cases hp : parse source with
  | error e => exact keeps_fail e
  | ok p => exact hD.keeps_runProgram hroot limit hp

/-- Sessions keep a sound discipline if the programs of their texts may begin. -/
theorem keeps_session_of (hD : D.Sound) {start : Session} (limit : Nat) {sources : List String}
    (hroot : ∀ source ∈ sources, D.BeginsWith start.root source) (hs : D.Holds start.store)
    (hT : ∀ ev ∈ start.events releaseOnExit limit sources, D.Happens ev) :
    (∀ ev ∈ start.events releaseOnExit limit sources, D.Observes ev) ∧
      D.Holds (start.after releaseOnExit limit sources).store := by
  induction sources generalizing start with
  | nil => exact ⟨by simp [Session.events], hs⟩
  | cons source rest ih =>
    obtain ⟨hobs, hrun⟩ := hD.keeps_interpret (hroot source List.mem_cons_self) limit hs
      fun ev hev => hT ev (List.mem_append_left _ hev)
    have hnext : D.Holds (start.step releaseOnExit limit source).2.store := by
      rw [Session.store_step]
      exact hrun.holds_after
    rw [← start.root_step releaseOnExit limit source] at hroot
    obtain ⟨hobs', hlast⟩ := ih (fun source' h => hroot source' (List.mem_cons_of_mem _ h)) hnext
      fun ev hev => hT ev (List.mem_append_right _ hev)
    refine ⟨fun ev hev => ?_, hlast⟩
    rcases List.mem_append.1 hev with hev | hev
    · exact hobs ev hev
    · exact hobs' ev hev

/-- **Sessions keep a sound discipline**, from unit to unit. -/
theorem keeps_session (hD : D.Sound) {start : Session} (hroot : D.Begins start.root) (limit : Nat)
    {sources : List String} (hs : D.Holds start.store)
    (hT : ∀ ev ∈ start.events releaseOnExit limit sources, D.Happens ev) :
    (∀ ev ∈ start.events releaseOnExit limit sources, D.Observes ev) ∧
      D.Holds (start.after releaseOnExit limit sources).store :=
  hD.keeps_session_of limit (fun source _ => hroot.source source) hs hT

end Sound

end Run

end Discipline

end ClosureCalc
