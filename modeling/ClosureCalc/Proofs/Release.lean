/-
Runs that empty frames and runs that keep them.

Two runs of the same program start from stores that agree. One empties the
frames that it leaves, the other keeps them. As long as no frame is emptied
under a value that still reaches it, both go on alike.

* `Eval.Alike`: two computations go on alike; the frames that the stores agree
  on become more by new ones only. It passes through binds
  (`Eval.Alike.bind`) and through frames that are entered and left
  (`Eval.Alike.inNewFrame`).
* `alike_evaluate`, `alike_execute`, `alike_call`, `Session.alike`: the parts of
  two runs go on alike.
* `releasing_is_unobservable`: the units of a session have the same answers
  whether frames are emptied or kept.
-/
import ClosureCalc.Proofs.Agree

namespace ClosureCalc

/-! ### Computations that go on alike -/

namespace Eval

variable {α β : Type} {D K : Set FrameId} {s t : Store} {A : Set FrameId}
variable {x y : Eval α} {k l : α → Eval β} {r : Record} {rk : α → Record}
variable {Q : α → Set FrameId → Prop} {Q' : β → Set FrameId → Prop}
variable {exit : ExitRule} {Allowed : Event → Prop}

/-- Two computations end alike: with the same value or for the same reason, in
stores that agree. -/
def EndAlike (D K : Set FrameId) (Q : α → Set FrameId → Prop) :
    EStateM.Result Stop Store α → EStateM.Result Stop Store α → Prop
  | .ok a s, .ok b t => a = b ∧ s.Agree D K t ∧ Q a K
  | .error e s, .error e' t => e = e' ∧ s.Agree D K t
  | _, _ => False

/-- **Computations that go on alike** from two stores that agree, where the events
of the first one are allowed. The frames agreed on at the end are those of the
beginning and new ones; the frames that were emptied by safe exits in between
are not among them. -/
def Alike (Allowed : Event → Prop) (x y : Eval α) (r : Record) (Q : α → Set FrameId → Prop)
    (D K : Set FrameId) (s t : Store) : Prop :=
  s.Agree D K t → (∀ ev ∈ r s, Allowed ev) →
    ∃ K', K ⊆ K' ∧ (∀ g ∈ K', g ∉ K → s.frames.size ≤ g) ∧
      EndAlike (D ∪ lost (r s)) K' Q (x s) (y t)

/-- Without events the stores agree on what they agreed on. -/
lemma alike_of_endAlike (h : s.Agree D K t → EndAlike D K Q (x s) (y t)) :
    x.Alike Allowed y .none Q D K s t := by
  intro hst _
  refine ⟨K, subset_rfl, fun g hg hK => absurd hg hK, ?_⟩
  rw [Record.none, lost_nil, Set.union_empty]
  exact h hst

lemma alike_pure {a : α} (h : Q a K) : (pure a : Eval α).Alike Allowed (pure a) .none Q D K s t :=
  alike_of_endAlike fun hst => ⟨rfl, hst, h⟩

lemma alike_fail (e : Error) : (fail e : Eval α).Alike Allowed (fail e) .none Q D K s t :=
  alike_of_endAlike fun hst => ⟨rfl, hst⟩

/-- What follows two computations that go on alike. -/
lemma Alike.bind (hx : x.Alike Allowed y r Q D K s t) (ha : x.Affects A r)
    (hk : ∀ a D' K' s' t', K ⊆ K' → Q a K' → (k a).Alike Allowed (l a) (rk a) Q' D' K' s' t') :
    (x >>= k).Alike Allowed (y >>= l) (x.recorded r rk) Q' D K s t := by
  intro hst hallowed
  have hgrows := (ha s).grows.frames_le
  rcases h : x s with ⟨a, s'⟩ | ⟨stop, s'⟩
  · rw [recorded_ok h] at hallowed
    rw [recorded_ok h, bind_ok h, lost_append, ← Set.union_assoc]
    rw [after_ok h] at hgrows
    obtain ⟨K₁, hK₁, hnew₁, hend₁⟩ :=
      hx hst fun ev hev => hallowed ev (List.mem_append_left _ hev)
    rw [h] at hend₁
    rcases h' : y t with ⟨b, t'⟩ | ⟨stop', t'⟩
    · rw [h'] at hend₁
      obtain ⟨rfl, hst', hq⟩ := hend₁
      obtain ⟨K₂, hK₂, hnew₂, hend₂⟩ :=
        hk a _ K₁ s' t' hK₁ hq hst' fun ev hev => hallowed ev (List.mem_append_right _ hev)
      rw [bind_ok h']
      refine ⟨K₂, hK₁.trans hK₂, fun g hg hK => ?_, hend₂⟩
      by_cases hg₁ : g ∈ K₁
      · exact hnew₁ g hg₁ hK
      · exact hgrows.trans (hnew₂ g hg hg₁)
    · rw [h'] at hend₁
      exact hend₁.elim
  · rw [recorded_error h] at hallowed
    rw [recorded_error h, bind_error h]
    obtain ⟨K₁, hK₁, hnew₁, hend₁⟩ := hx hst hallowed
    rw [h] at hend₁
    rcases h' : y t with ⟨b, t'⟩ | ⟨stop', t'⟩
    · rw [h'] at hend₁
      exact hend₁.elim
    · rw [h'] at hend₁
      rw [bind_error h']
      exact ⟨K₁, hK₁, hnew₁, hend₁⟩

lemma Alike.bind_quiet (hx : x.Alike Allowed y r Q D K s t) (ha : x.Affects A r)
    (hk : ∀ a D' K' s' t', K ⊆ K' → Q a K' → (k a).Alike Allowed (l a) .none Q' D' K' s' t') :
    (x >>= k).Alike Allowed (y >>= l) r Q' D K s t := by
  have h := hx.bind ha hk
  rwa [recorded_none] at h

/-- A plain event at the beginning. -/
lemma Alike.cons {ev : Store → Event} (hev : ∀ s, (ev s).Plain)
    (h : x.Alike Allowed y r Q D K s t) : x.Alike Allowed y (.cons ev r) Q D K s t := by
  intro hst hallowed
  obtain ⟨K', hK', hnew, hend⟩ := h hst fun ev' hev' => hallowed ev' (List.mem_cons_of_mem _ hev')
  refine ⟨K', hK', hnew, ?_⟩
  rwa [Record.cons, lost_cons_of_not_empties (hev s).not_empties]

/-- The value of statements that returned is from inside `K`. -/
def FlowInside (flow : Flow) (K : Set FrameId) : Prop :=
  ∀ v, flow.value? = some v → v.Inside K

/-- The frames that are lost while a new frame is in use, and with its exit. -/
lemma lost_newFrame (f : FrameId) (construct : Construct) (s : Store) (τ : List Event)
    (ev : Event) :
    lost (.enters f construct s :: (τ ++ [ev])) = lost τ ∪ lost [ev] := by
  rw [lost_cons_of_not_empties fun _ => id, lost_append]

/-- Statements in new frames, left by the exit rules of the two runs. -/
lemma Alike.inNewFrame (hexit : ExitsAlike exit Allowed) {body body' : FrameId → Eval Flow}
    {events : FrameId → Record} {f : FrameId} (construct : Construct) (hf : f ∈ K)
    (ha : ∀ inner, (body inner).Affects {inner} (events inner))
    (h : (body s.frames.size).Alike Allowed (body' s.frames.size) (events s.frames.size)
      FlowInside D (insert s.frames.size K) (s.extend f).2 (t.extend f).2) :
    (inNewFrame releaseOnExit f body).Alike Allowed (inNewFrame exit f body')
      (newFrameEvents construct f body events) FlowInside D K s t := by
  intro hst hallowed
  have hgrows := (ha s.frames.size (s.extend f).2).grows
  have hold : ∀ s', (s.extend f).2.Extends {s.frames.size} s' → s.Extends ∅ s' := fun s' h =>
    (s.extends_extend ∅ f).trans_new h (by simp)
  obtain ⟨K', hK', hnew', hend⟩ := h (hst.extend hf) fun ev hev =>
    hallowed ev (List.mem_cons_of_mem _ (List.mem_append_left _ hev))
  have hnew : ∀ g ∈ K', g ∉ insert s.frames.size K → s.frames.size ≤ g := fun g hg hgK =>
    Nat.le_of_succ_le (by simpa using hnew' g hg hgK)
  rcases hb : body s.frames.size (s.extend f).2 with ⟨flow, s'⟩ | ⟨stop, s'⟩ <;>
  rcases hb' : body' s.frames.size (t.extend f).2 with ⟨flow', t'⟩ | ⟨stop', t'⟩ <;>
    rw [hb, hb'] at hend
  · obtain ⟨rfl, hst', hflow⟩ := hend
    rw [after_ok hb] at hgrows
    rw [newFrameEvents_ok hb] at hallowed ⊢
    obtain ⟨K₁, t₁, ht₁, hK₁, hnew₁, hst₁, hflow₁⟩ := hst.exit hexit (hold s' hgrows) hst' hK'
      hnew hflow (hallowed (.leaves s.frames.size flow.value? s') (by simp))
    rw [← hst.frames_size] at hb' ht₁
    rw [inNewFrame_ok hb, inNewFrame_of_ok hb' ht₁, lost_newFrame, ← Set.union_assoc]
    exact ⟨K₁, hK₁, hnew₁, rfl, hst₁, hflow₁⟩
  · exact hend.elim
  · exact hend.elim
  · obtain ⟨rfl, hst'⟩ := hend
    rw [after_error hb] at hgrows
    rw [newFrameEvents_error hb] at hallowed ⊢
    have hnone : ∀ v, (none : Option Value) = some v → v.Inside K' := by simp
    obtain ⟨K₁, t₁, ht₁, hK₁, hnew₁, hst₁, -⟩ := hst.exit hexit (hold s' hgrows) hst' hK'
      hnew hnone (hallowed (.leaves s.frames.size none s') (by simp))
    rw [← hst.frames_size] at hb' ht₁
    rw [inNewFrame_error hb, inNewFrame_of_error hb' ht₁, lost_newFrame, ← Set.union_assoc]
    exact ⟨K₁, hK₁, hnew₁, rfl, hst₁⟩

/-! ### Single operations -/

lemma alike_declare {f : FrameId} (hf : f ∈ K) {v : Value} (hv : v.Inside K) (name : String)
    (p : Position) :
    (declare f name v p).Alike Allowed (declare f name v p) .none (fun _ _ => True) D K s t := by
  refine alike_of_endAlike fun hst => ?_
  rw [declare, declare, hst.canDeclare hf]
  split
  · exact ⟨rfl, hst.bind hf name hv, trivial⟩
  · exact ⟨rfl, hst⟩

lemma alike_declareAll {f : FrameId} (p : Position) :
    ∀ {names : List String} {vs : List Value} {K : Set FrameId} {s t : Store}
      {D : Set FrameId}, f ∈ K → (∀ v ∈ vs, v.Inside K) →
      (declareAll f p names vs).Alike Allowed (declareAll f p names vs) .none
        (fun _ _ => True) D K s t
  | name :: names, v :: vs, K, s, t, D, hf, hvs => by
      rw [declareAll]
      refine (alike_declare hf (hvs v (by simp)) name p).bind_quiet
        (affects_declare (Set.mem_singleton f) name v p) fun _ D' K' s' t' hK _ => ?_
      exact alike_declareAll p (hK hf) fun w hw => (hvs w (by simp [hw])).mono hK
  | [], vs, K, s, t, D, _, _ => by
      rw [declareAll]
      · exact alike_pure trivial
      · simp
  | name :: names, [], K, s, t, D, _, _ => by
      rw [declareAll]
      · exact alike_pure trivial
      · simp

lemma alike_unary (op : UnaryOp) (p : Position) (v : Value) :
    (unary op p v).Alike Allowed (unary op p v) .none Value.Inside D K s t := by
  cases v with
  | number a => exact alike_pure (inside_of_ne (by simp) K)
  | function decl closure => exact alike_fail _
  | builtin b home => exact alike_fail _
  | undefined => exact alike_fail _

lemma alike_binary (op : BinaryOp) (left right : Expr) (v w : Value) :
    (binary op left right v w).Alike Allowed (binary op left right v w) .none
      Value.Inside D K s t := by
  cases v <;> cases w <;>
    first
    | exact alike_pure (inside_of_ne (by simp) K)
    | exact alike_fail _

lemma alike_builtin (b : Builtin) (args : List Value) (p : Position) :
    (builtin b args p).Alike Allowed (builtin b args p) .none Value.Inside D K s t := by
  refine alike_of_endAlike fun hst => ?_
  rw [builtin, builtin, hst.generator]
  split
  · exact ⟨rfl, hst⟩
  · cases b.apply args s.generator with
    | ok result => exact ⟨rfl, hst.of_eq rfl rfl rfl rfl hst.units rfl, inside_of_ne (by simp) K⟩
    | error complaint => exact ⟨rfl, hst⟩

/-- A name that is looked up from a frame of `K` stands for the same value. -/
lemma alike_identifier {f : FrameId} (hf : f ∈ K) (caller caller' : Caller) (p : Position)
    (name : String) :
    (evaluate caller f (.identifier p name)).Alike Allowed (evaluate caller' f (.identifier p name))
      .none Value.Inside D K s t := by
  refine alike_of_endAlike fun hst => ?_
  rw [evaluate_identifier, evaluate_identifier, hst.get? hf]
  cases hv : s.get? f name with
  | some v => exact ⟨rfl, hst, hst.inside_of_get? hf hv⟩
  | none => exact ⟨rfl, hst⟩

end Eval

/-! ### Evaluation and execution -/

section Run

variable {exit : ExitRule} {Allowed : Event → Prop} {caller caller' : Caller}
  {calls : CallRecord}

/-- **Calls go on alike**: they change no frame, and values from inside the
frames agreed on yield such values. -/
structure AlikeCalls (Allowed : Event → Prop) (caller caller' : Caller) (calls : CallRecord) :
    Prop where
  affects : ∀ v args p, (caller v args p).Affects ∅ (calls v args p)
  alike : ∀ v args p (D K : Set FrameId) s t, v.Inside K → (∀ w ∈ args, w.Inside K) →
    (caller v args p).Alike Allowed (caller' v args p) (calls v args p) Value.Inside D K s t

mutual

/-- Expressions go on alike. -/
lemma alike_evaluate (hcall : AlikeCalls Allowed caller caller' calls) (unit : Nat) {f : FrameId} :
    ∀ e {D K : Set FrameId} {s t}, f ∈ K →
      (evaluate caller f e).Alike Allowed (evaluate caller' f e)
        (evaluateEvents caller calls unit f e)
        Value.Inside D K s t
  | .number p x, D, K, s, t, hf => by
      rw [evaluate, evaluate, evaluateEvents]
      exact (Eval.alike_pure (inside_of_ne (by simp) K)).cons fun _ => trivial
  | .identifier p name, D, K, s, t, hf => by
      rw [evaluateEvents]
      exact (Eval.alike_identifier hf caller caller' p name).cons fun _ => trivial
  | .unary p op target, D, K, s, t, hf => by
      rw [evaluate, evaluate, evaluateEvents]
      refine Eval.Alike.cons (fun _ => trivial) ?_
      refine (alike_evaluate hcall unit target hf).bind_quiet
        (affects_evaluate hcall.affects unit f target) fun v D' K' s' t' _ _ => ?_
      exact Eval.alike_unary op p v
  | .binary p op left right, D, K, s, t, hf => by
      rw [evaluate, evaluate, evaluateEvents]
      refine Eval.Alike.cons (fun _ => trivial) ?_
      refine (alike_evaluate hcall unit left hf).bind
        (affects_evaluate hcall.affects unit f left) fun a D' K' s' t' hK _ => ?_
      refine (alike_evaluate hcall unit right (hK hf)).bind_quiet
        (affects_evaluate hcall.affects unit f right) fun b D'' K'' s'' t'' _ _ => ?_
      exact Eval.alike_binary op left right a b
  | .call p callee args, D, K, s, t, hf => by
      rw [evaluate, evaluate, evaluateEvents]
      refine Eval.Alike.cons (fun _ => trivial) ?_
      refine (alike_evaluate hcall unit callee hf).bind
        (affects_evaluate hcall.affects unit f callee) fun v D' K' s' t' hK hv => ?_
      refine (alike_evaluateAll hcall unit args (hK hf)).bind
        (affects_evaluateAll hcall.affects unit f args) fun vs D'' K'' s'' t'' hK' hvs => ?_
      exact hcall.alike v vs p D'' K'' s'' t'' (hv.mono hK') hvs

/-- Lists of expressions go on alike. -/
lemma alike_evaluateAll (hcall : AlikeCalls Allowed caller caller' calls) (unit : Nat)
    {f : FrameId} :
    ∀ es {D K : Set FrameId} {s t}, f ∈ K →
      (evaluateAll caller f es).Alike Allowed (evaluateAll caller' f es)
        (evaluateAllEvents caller calls unit f es) (fun vs K => ∀ v ∈ vs, v.Inside K) D K s t
  | [], D, K, s, t, _ => by
      rw [evaluateAll, evaluateAll, evaluateAllEvents]
      exact Eval.alike_pure (by simp)
  | e :: es, D, K, s, t, hf => by
      rw [evaluateAll, evaluateAll, evaluateAllEvents]
      refine (alike_evaluate hcall unit e hf).bind (affects_evaluate hcall.affects unit f e)
        fun v D' K' s' t' hK hv => ?_
      refine (alike_evaluateAll hcall unit es (hK hf)).bind_quiet
        (affects_evaluateAll hcall.affects unit f es) fun vs D'' K'' s'' t'' hK' hvs => ?_
      refine Eval.alike_pure fun w hw => ?_
      rcases List.mem_cons.1 hw with rfl | hw
      · exact hv.mono hK'
      · exact hvs w hw

end

lemma alike_evaluateOption (hcall : AlikeCalls Allowed caller caller' calls) (unit : Nat)
    {f : FrameId} (e : Option Expr) {D K : Set FrameId} {s t : Store} (hf : f ∈ K) :
    (evaluateOption caller f e).Alike Allowed (evaluateOption caller' f e)
      (evaluateOptionEvents caller calls unit f e) Value.Inside D K s t := by
  cases e with
  | some e => exact alike_evaluate hcall unit e hf
  | none => exact Eval.alike_pure (inside_of_ne (by simp) K)

/-- Statements that do not return have no value. -/
lemma flowInside_normal (K : Set FrameId) : Eval.FlowInside .normal K := by
  simp [Eval.FlowInside, Flow.value?]

mutual

/-- Statements go on alike. -/
lemma alike_execute (hexit : ExitsAlike exit Allowed)
    (hcall : AlikeCalls Allowed caller caller' calls) (unit : Nat) {f : FrameId} :
    ∀ st {D K : Set FrameId} {s t}, f ∈ K →
      (execute releaseOnExit caller unit f st).Alike Allowed (execute exit caller' unit f st)
        (executeEvents releaseOnExit caller calls unit f st) Eval.FlowInside D K s t
  | .var p name init, D, K, s, t, hf => by
      rw [execute, execute, executeEvents]
      refine Eval.Alike.cons (fun _ => trivial) ?_
      refine (alike_evaluateOption hcall unit init hf).bind_quiet
        (affects_evaluateOption hcall.affects unit f init) fun v D' K' s' t' hK hv => ?_
      refine (Eval.alike_declare (hK hf) hv name p).bind_quiet
        (Eval.affects_declare (Set.mem_singleton f) name v p) fun _ D'' K'' s'' t'' _ _ => ?_
      exact Eval.alike_pure (flowInside_normal K'')
  | .ret p value, D, K, s, t, hf => by
      rw [execute, execute, executeEvents]
      refine Eval.Alike.cons (fun _ => trivial) ?_
      refine (alike_evaluateOption hcall unit value hf).bind_quiet
        (affects_evaluateOption hcall.affects unit f value) fun v D' K' s' t' _ hv => ?_
      refine Eval.alike_pure fun w hw => ?_
      cases hw
      exact hv
  | .func p name params bodyPos body, D, K, s, t, hf => by
      rw [execute, execute, executeEvents]
      refine Eval.Alike.cons (fun _ => trivial) ?_
      -- the closure of the new function is the current frame
      have hv : (Value.function ⟨unit, p, name, params, body⟩ f).Inside K := by
        rintro decl closure hc
        cases hc
        exact hf
      refine (Eval.alike_declare hf hv name p).bind_quiet
        (Eval.affects_declare (Set.mem_singleton f) name _ p) fun _ D' K' s' t' _ _ => ?_
      exact Eval.alike_pure (flowInside_normal K')
  | .block p bodyPos body, D, K, s, t, hf => by
      rw [execute_block, execute_block, executeEvents]
      refine Eval.Alike.cons (fun _ => trivial) ?_
      exact Eval.Alike.inNewFrame hexit (.block unit p body) hf
        (fun inner => affects_executeAll hcall.affects unit inner body)
        (alike_executeAll hexit hcall unit body (Set.mem_insert _ K))
  | .expr p e, D, K, s, t, hf => by
      rw [execute, execute, executeEvents]
      refine Eval.Alike.cons (fun _ => trivial) ?_
      refine (alike_evaluate hcall unit e hf).bind_quiet
        (affects_evaluate hcall.affects unit f e) fun v D' K' s' t' _ _ => ?_
      exact Eval.alike_pure (flowInside_normal K')

/-- Lists of statements go on alike. -/
lemma alike_executeAll (hexit : ExitsAlike exit Allowed)
    (hcall : AlikeCalls Allowed caller caller' calls) (unit : Nat) {f : FrameId} :
    ∀ sts {D K : Set FrameId} {s t}, f ∈ K →
      (executeAll releaseOnExit caller unit f sts).Alike Allowed
        (executeAll exit caller' unit f sts)
        (executeAllEvents releaseOnExit caller calls unit f sts) Eval.FlowInside D K s t
  | [], D, K, s, t, _ => by
      rw [executeAll, executeAll, executeAllEvents]
      exact Eval.alike_pure (flowInside_normal K)
  | st :: rest, D, K, s, t, hf => by
      rw [executeAll, executeAll, executeAllEvents]
      refine (alike_execute hexit hcall unit st hf).bind
        ((affects_execute hcall.affects unit f st).mono (st.changes_subset f))
        fun flow D' K' s' t' hK hflow => ?_
      cases flow with
      | normal => exact alike_executeAll hexit hcall unit rest (hK hf)
      | returned v => exact Eval.alike_pure hflow

end

/-- Calls of declared functions go on alike. -/
lemma alike_callFunction (hexit : ExitsAlike exit Allowed)
    (hcall : AlikeCalls Allowed caller caller' calls) {decl : Declaration}
    {closure : FrameId} {args : List Value} {p : Position} {D K : Set FrameId} {s t : Store}
    (hf : closure ∈ K) (hargs : ∀ w ∈ args, w.Inside K) :
    (callFunction releaseOnExit caller decl closure args p).Alike Allowed
      (callFunction exit caller' decl closure args p)
      (callFunctionEvents releaseOnExit caller calls decl closure args p)
      Value.Inside D K s t := by
  by_cases h : args.length < decl.params.length
  · rw [callFunction, callFunction, if_pos h, if_pos h, callFunctionEvents, if_pos h]
    exact Eval.alike_fail _
  · rw [callFunction_of_le (Nat.not_lt.1 h), callFunction_of_le (Nat.not_lt.1 h),
      callFunctionEvents, if_neg h]
    have haffects := affects_callBody hcall.affects decl args p
    refine Eval.Alike.bind_quiet (Eval.Alike.inNewFrame hexit (.function decl) hf haffects ?_)
      (Eval.Affects.inNewFrame haffects (.function decl) closure)
      fun flow D' K' s' t' _ hflow => ?_
    · refine Eval.Alike.bind (Eval.alike_declareAll p (Set.mem_insert _ K) fun w hw =>
        (hargs w hw).mono (Set.subset_insert _ K))
        (Eval.affects_declareAll (Set.mem_singleton _) p _ args) fun _ D' K' s' t' hK _ => ?_
      exact alike_executeAll hexit hcall decl.unit decl.body (hK (Set.mem_insert _ K))
    · refine Eval.alike_pure ?_
      cases flow with
      | normal => exact inside_of_ne (by simp [Flow.value?]) K'
      | returned v => exact hflow v rfl

/-- **Calls go on alike**, however deep they go. -/
lemma alike_call (hexit : ExitsAlike exit Allowed) (n : Nat) :
    AlikeCalls Allowed (call releaseOnExit n) (call exit n) (callEvents releaseOnExit n) := by
  induction n with
  | zero =>
    refine ⟨affects_call 0, fun v args p D K s t _ _ => ?_⟩
    exact Eval.alike_of_endAlike fun hst => ⟨rfl, hst⟩
  | succ n ih =>
    refine ⟨affects_call (n + 1), fun v args p D K s t hv hargs => ?_⟩
    cases v with
    | function decl closure => exact alike_callFunction hexit ih (hv decl closure rfl) hargs
    | number x => exact Eval.alike_fail _
    | builtin b home => exact Eval.alike_builtin b args p
    | undefined => exact Eval.alike_fail _

end Run

/-! ### Units and sessions -/

section Units

variable {D K : Set FrameId} {s t : Store} {root : FrameId}
variable {exit : ExitRule} {Allowed : Event → Prop}

/-- The value of a unit, if it has one, is from inside `K`. -/
def AnswerInside (value : Option Value) (K : Set FrameId) : Prop :=
  ∀ v, value = some v → v.Inside K

lemma alike_executeUnit (hexit : ExitsAlike exit Allowed) (limit unit : Nat) (sts : List Stmt)
    (last : Option Value)
    (hroot : root ∈ K) (hlast : AnswerInside last K) :
    (executeUnit releaseOnExit (call releaseOnExit limit) unit root sts last).Alike Allowed
      (executeUnit exit (call exit limit) unit root sts last)
      (executeUnitEvents releaseOnExit (call releaseOnExit limit)
        (callEvents releaseOnExit limit) unit root sts) AnswerInside D K s t := by
  have hcall := alike_call hexit limit
  induction sts generalizing last D K s t with
  | nil => exact Eval.alike_pure hlast
  | cons st rest ih =>
    by_cases h : ∃ p e, st = .expr p e
    · obtain ⟨p, e, rfl⟩ := h
      rw [executeUnit, executeUnit, executeUnitEvents]
      refine (alike_evaluate hcall unit e hroot).bind
        (affects_evaluate hcall.affects unit root e) fun v D' K' s' t' hK hv => ?_
      exact ih _ (hK hroot) fun w hw => Option.some.inj hw ▸ hv
    · have hne : ∀ p e, st ≠ .expr p e := fun p e he => h ⟨p, e, he⟩
      rw [executeUnit_cons hne, executeUnit_cons hne, executeUnitEvents_cons hne]
      refine (alike_execute hexit hcall unit st hroot).bind
        ((affects_execute hcall.affects unit root st).mono (st.changes_subset root))
        fun flow D' K' s' t' hK hflow => ?_
      cases flow with
      | normal => exact ih _ (hK hroot) (by simp [AnswerInside])
      | returned v => exact Eval.alike_pure hflow

lemma alike_runProgram (hexit : ExitsAlike exit Allowed) (limit : Nat) (p : Program)
    (hroot : root ∈ K) :
    (runProgram releaseOnExit limit root p).Alike Allowed (runProgram exit limit root p)
      (runProgramEvents releaseOnExit limit root p)
      (fun answer K => AnswerInside answer.value K) D K s t := by
  intro hst hallowed
  have hnew : s.newUnit.2.Agree D K t.newUnit.2 :=
    hst.of_eq rfl rfl rfl rfl (congrArg (· + 1) hst.units) hst.generator
  obtain ⟨K', hK', hnew', hend⟩ := alike_executeUnit hexit limit s.units p.body none hroot
    (by simp [AnswerInside]) hnew fun ev hev => hallowed ev (List.mem_cons_of_mem _ hev)
  have hlost : lost (runProgramEvents releaseOnExit limit root p s) =
      lost (executeUnitEvents releaseOnExit (call releaseOnExit limit)
        (callEvents releaseOnExit limit) s.units root p.body s.newUnit.2) :=
    lost_cons_of_not_empties (fun _ => id) _
  refine ⟨K', hK', hnew', ?_⟩
  have hunits : t.units = s.units := hst.units
  rw [hlost, runProgram_apply, runProgram_apply, hunits, hst.names hroot]
  rcases hx : executeUnit releaseOnExit (call releaseOnExit limit) s.units root p.body none
    s.newUnit.2 with ⟨value, s'⟩ | ⟨stop, s'⟩ <;>
  rcases hy : executeUnit exit (call exit limit) s.units root p.body none
    t.newUnit.2 with ⟨value', t'⟩ | ⟨stop', t'⟩ <;> rw [hx, hy] at hend
  · obtain ⟨rfl, hst', hvalue⟩ := hend
    exact ⟨by rw [hst'.names (hK' hroot)], hst', hvalue⟩
  · exact hend.elim
  · exact hend.elim
  · exact hend

lemma alike_interpret (hexit : ExitsAlike exit Allowed) (limit : Nat) (source : String)
    (hroot : root ∈ K) :
    (interpret releaseOnExit limit root source).Alike Allowed (interpret exit limit root source)
      (interpretEvents releaseOnExit limit root source)
      (fun answer K => AnswerInside answer.value K) D K s t := by
  rw [interpret, interpret, interpretEvents]
  cases parse source with
  | error e => exact Eval.alike_fail e
  | ok p => exact alike_runProgram hexit limit p hroot

/-- One unit goes on alike, and so do the two sessions behind it. -/
lemma Session.alike_step (hexit : ExitsAlike exit Allowed) {start start' : Session}
    (hroot : start'.root = start.root)
    (hK : start.root ∈ K) (h : start.store.Agree D K start'.store) (limit : Nat)
    (source : String)
    (hallowed : ∀ ev ∈ interpretEvents releaseOnExit limit start.root source start.store,
      Allowed ev) :
    (start.step releaseOnExit limit source).1 = (start'.step exit limit source).1 ∧
      ∃ K', K ⊆ K' ∧
        (start.step releaseOnExit limit source).2.store.Agree
          (D ∪ lost (interpretEvents releaseOnExit limit start.root source start.store)) K'
          (start'.step exit limit source).2.store ∧
        ∀ answer, (start.step releaseOnExit limit source).1 = .ok answer →
          AnswerInside answer.value K' := by
  obtain ⟨K', hK', -, hend⟩ := alike_interpret hexit limit source hK h hallowed
  rw [step, step, hroot]
  rcases hx : interpret releaseOnExit limit start.root source start.store with
    ⟨answer, s'⟩ | ⟨stop, s'⟩ <;>
  rcases hy : interpret exit limit start.root source start'.store with
    ⟨answer', t'⟩ | ⟨stop', t'⟩ <;> rw [hx, hy] at hend
  · obtain ⟨rfl, hst, hvalue⟩ := hend
    refine ⟨rfl, K', hK', hst, fun answer₁ h₁ => ?_⟩
    rwa [← Except.ok.inj h₁]
  · exact hend.elim
  · exact hend.elim
  · obtain ⟨rfl, hst⟩ := hend
    exact ⟨rfl, K', hK', hst, fun _ h₁ => by cases h₁⟩

/-- **Sessions go on alike**, from unit to unit. -/
lemma Session.alike (hexit : ExitsAlike exit Allowed) {start start' : Session}
    (hroot : start'.root = start.root)
    (hK : start.root ∈ K) (h : start.store.Agree D K start'.store) (limit : Nat)
    {sources : List String}
    (hallowed : ∀ ev ∈ start.events releaseOnExit limit sources, Allowed ev) :
    start.answers releaseOnExit limit sources = start'.answers exit limit sources ∧
      ∃ K', K ⊆ K' ∧
        (start.after releaseOnExit limit sources).store.Agree
          (D ∪ lost (start.events releaseOnExit limit sources)) K'
          (start'.after exit limit sources).store := by
  induction sources generalizing start start' D K with
  | nil =>
    refine ⟨rfl, K, subset_rfl, ?_⟩
    rw [events, lost_nil, Set.union_empty]
    exact h
  | cons source rest ih =>
    obtain ⟨hanswer, K₁, hK₁, hagree, -⟩ := alike_step hexit hroot hK h limit source
      fun ev hev => hallowed ev (List.mem_append_left _ hev)
    have hroot₁ : (start'.step exit limit source).2.root =
        (start.step releaseOnExit limit source).2.root := by
      rw [root_step, root_step, hroot]
    have hmem : (start.step releaseOnExit limit source).2.root ∈ K₁ := by
      rw [root_step]
      exact hK₁ hK
    obtain ⟨hanswers, K₂, hK₂, hagree₂⟩ := ih hroot₁ hmem hagree
      fun ev hev => hallowed ev (List.mem_append_right _ hev)
    refine ⟨by rw [answers, answers, hanswer, hanswers], K₂, hK₁.trans hK₂, ?_⟩
    rw [events, lost_append, ← Set.union_assoc]
    exact hagree₂

end Units

/-- A well-formed store agrees with itself on all of its frames. -/
lemma Store.WellFormed.agree {s : Store} (h : s.WellFormed) :
    s.Agree ∅ {g | g < s.frames.size} s where
  frames_size := rfl
  slots := rfl
  units := rfl
  generator := rfl
  frame _ _ := rfl
  closed g _ k hp := by
    cases hp with
    | outer hk => exact h.outer_lt_size hk
    | closure _ hv => exact h.slot_within _ _ _ hv
  slot_lt g _ := h.slot_lt g
  lt _ hg := hg
  clean _ _ := Set.notMem_empty _
  lost_lt g hg := absurd hg (Set.notMem_empty g)

/-- **Releasing frames is unobservable**, if every function that leaves a frame
comes from inside it or is older. Then all units of a session answer the same
whether frames are emptied or kept when they are left. -/
theorem releasing_is_unobservable {start : Session} (h : start.WellFormed) (limit : Nat)
    (sources : List String)
    (hexits : ∀ f decl, ∀ closure : Nat, ∀ s,
      .leaves f (some (.function decl closure)) s ∈ start.events releaseOnExit limit sources →
        s.isWithin closure f = true ∨ closure < f) :
    start.answers releaseOnExit limit sources = start.answers keepOnExit limit sources := by
  have hsafe : ∀ ev ∈ start.events releaseOnExit limit sources, ev.Safe := by
    rintro ev hev f decl closure s rfl ⟨hnot, -⟩
    rcases hexits f decl closure s hev with hin | hlt
    · rw [Option.any_some, Store.captures, hin] at hnot
      exact absurd hnot (by decide)
    · exact .inl hlt
  exact (Session.alike exitsAlike_keepOnExit rfl h.root_lt h.store.agree limit hsafe).1

/-- Whether a function that leaves a frame comes from inside it or is older. -/
def Event.exitsHome : Event → Bool
  | .leaves f (some (.function _ closure)) s => s.isWithin closure f || decide (closure < f)
  | _ => true

/-- A function that is kept with its frame, passed through another one, which is
emptied, and called. -/
theorem releasing_is_unobservable_passed :
    let start := Session.bare ⟨0⟩
    let sources := ["func f(x)\x7bfunc g()\x7breturn x\x7dreturn g\x7dfunc i(k)\x7breturn k\x7d",
      "var h=i(f(f))", "h()"]
    (∀ f decl, ∀ closure : Nat, ∀ s,
      .leaves f (some (.function decl closure)) s ∈ start.events releaseOnExit 2 sources →
        s.isWithin closure f = true ∨ closure < f) ∧
      start.answers releaseOnExit 2 sources = start.answers keepOnExit 2 sources := by
  intro start sources
  have hall : (start.events releaseOnExit 2 sources).all Event.exitsHome = true := by
    decide +kernel
  have hexits : ∀ f decl, ∀ closure : Nat, ∀ s,
      .leaves f (some (.function decl closure)) s ∈ start.events releaseOnExit 2 sources →
        s.isWithin closure f = true ∨ closure < f := by
    intro f decl closure s hev
    have h : (s.isWithin closure f || decide (closure < f)) = true :=
      List.all_eq_true.1 hall _ hev
    rwa [Bool.or_eq_true, decide_eq_true_eq] at h
  exact ⟨hexits, releasing_is_unobservable (Session.wellFormed_bare ⟨0⟩) 2 sources hexits⟩

end ClosureCalc
