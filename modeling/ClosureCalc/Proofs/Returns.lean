/-
Statements that return.

Statements return at one place, the first `return` that is executed among them or in a
block within them. What its value evaluates to is what they come to.

* `Eval.answer`: what a computation comes to, whatever it leaves in the store.
* `firstReturn?`: the first `return` that statements execute. What happens in calls
  does not count.
* `decides_executeAll`: that `return` decides what the statements come to.
-/
import ClosureCalc.Proofs.Affects

namespace ClosureCalc

namespace Eval

variable {α β : Type} {s s' : Store}

/-- What a computation comes to: its value, or why it stopped. -/
def answer (x : Eval α) (s : Store) : Except Stop α :=
  match x s with
  | .ok a _ => .ok a
  | .error stop _ => .error stop

lemma answer_ok {x : Eval α} {a : α} (h : x s = .ok a s') : x.answer s = .ok a := by
  rw [answer, h]

lemma answer_error {x : Eval α} {stop : Stop} (h : x s = .error stop s') :
    x.answer s = .error stop := by
  rw [answer, h]

/-- A step that only turns one value into another. -/
lemma answer_bind_pure (x : Eval α) (g : α → β) (s : Store) :
    (x >>= fun a => pure (g a)).answer s = (x.answer s).map g := by
  rcases h : x s with ⟨a, s'⟩ | ⟨stop, s'⟩
  · rw [answer_ok h]
    exact answer_ok (bind_ok h _)
  · rw [answer_error h]
    exact answer_error (bind_error h _)

/-- Leaving a frame does not change what its statements come to. -/
lemma answer_inNewFrame (f : FrameId) (body : FrameId → Eval Flow) (s : Store) :
    (inNewFrame releaseOnExit f body).answer s = (body s.frames.size).answer (s.extend f).2 := by
  rcases h : body s.frames.size (s.extend f).2 with ⟨flow, s'⟩ | ⟨stop, s'⟩
  · rw [answer_ok h, answer_ok (inNewFrame_ok h)]
  · rw [answer_error h, answer_error (inNewFrame_error h)]

/-- **A computation never returns**: it goes on to what comes next, or stops. -/
def NeverReturns (x : Eval Flow) : Prop := ∀ s v, x.answer s ≠ .ok (.returned v)

lemma neverReturns_normal : (pure .normal : Eval Flow).NeverReturns :=
  fun _ _ => nofun

lemma NeverReturns.bind {x : Eval α} {k : α → Eval Flow} (hk : ∀ a, (k a).NeverReturns) :
    (x >>= k).NeverReturns := by
  intro s v
  rcases h : x s with ⟨a, s'⟩ | ⟨stop, s'⟩
  · have heq : (x >>= k).answer s = (k a).answer s' := by rw [answer, answer, bind_ok h]
    rw [heq]
    exact hk a s' v
  · rw [answer_error (bind_error h k)]
    nofun

end Eval

/-! ### The first `return` -/

/-- A `return` at the moment when it is executed. -/
structure Return where
  frame : FrameId
  value : Option Expr
  store : Store

/-- What a `return` comes to: its value is evaluated where and when it is executed. -/
def Return.answer (caller : Caller) (r : Return) : Except Stop Value :=
  (evaluateOption caller r.frame r.value).answer r.store

/-- The `return` that is executed with an event. -/
def Event.return? : Event → Option Return
  | .executes _ f (.ret _ value) s => some ⟨f, value, s⟩
  | _ => none

/-- Nothing is recorded of calls. -/
def CallRecord.none : CallRecord := fun _ _ _ => .none

/-- Entering and leaving a frame executes no statement. -/
lemma Eval.findSome?_newFrameEvents (k : Construct) (f : FrameId) (body : FrameId → Eval Flow)
    (events : FrameId → Record) (s : Store) :
    (newFrameEvents k f body events s).findSome? Event.return? =
      (events s.frames.size (s.extend f).2).findSome? Event.return? := by
  have hleaves : ∀ r : EStateM.Result Stop Store Flow,
      (leaving s.frames.size r).return? = none := fun r => by cases r <;> rfl
  change List.findSome? Event.return? (_ :: (_ ++ [leaving s.frames.size _])) = _
  rw [List.findSome?_cons_of_isNone rfl, List.findSome?_append,
    List.findSome?_cons_of_isNone (by rw [hleaves]; rfl), List.findSome?_nil, Option.or_none]
  rfl

/-- **The first `return` that statements execute** from a store, one of them or one in
their blocks. -/
def firstReturn? (caller : Caller) (unit : Nat) (f : FrameId) (sts : List Stmt) (s : Store) :
    Option Return :=
  (executeAllEvents releaseOnExit caller .none unit f sts s).findSome? Event.return?

/-- **A `return` decides an outcome**, which is what its value comes to. Without one,
nothing is returned. -/
def Decides (caller : Caller) : Option Return → Except Stop Flow → Prop
  | some r, answer => answer = (r.answer caller).map .returned
  | none, answer => ∀ v, answer ≠ .ok (.returned v)

section Decides

variable {caller : Caller} {first : Option Return}

lemma Decides.eq_none (h : Decides caller first (.ok .normal)) : first = none := by
  cases first with
  | none => rfl
  | some r =>
    rw [Decides] at h
    cases hr : r.answer caller <;> rw [hr] at h <;> cases h

lemma Decides.exists_eq_some {v : Value} (h : Decides caller first (.ok (.returned v))) :
    ∃ r, first = some r ∧ r.answer caller = .ok v := by
  cases first with
  | none => exact absurd rfl (h v)
  | some r =>
    rw [Decides] at h
    cases hr : r.answer caller <;> rw [hr] at h <;> cases h
    exact ⟨r, rfl, hr⟩

lemma Decides.answer_eq {stop : Stop} (h : Decides caller first (.error stop)) {r : Return}
    (hr : first = some r) : r.answer caller = .error stop := by
  subst hr
  rw [Decides] at h
  cases hr : r.answer caller <;> rw [hr] at h <;> cases h
  rfl

end Decides

/-! ### Expressions -/

/-- No `return` is recorded. -/
def Record.Returnless (r : Record) : Prop := ∀ s, (r s).findSome? Event.return? = .none

namespace Record.Returnless

variable {α : Type} {r : Record} {rk : α → Record}

lemma none : Record.none.Returnless := fun _ => rfl

lemma cons {ev : Store → Event} (hev : ∀ s, (ev s).return? = .none) (hr : r.Returnless) :
    (Record.cons ev r).Returnless := by
  intro s
  rw [Record.cons, List.findSome?_cons, hev s]
  exact hr s

lemma recorded (hr : r.Returnless) (hk : ∀ a, (rk a).Returnless) (x : Eval α) :
    Returnless (x.recorded r rk) := by
  intro s
  rcases h : x s with ⟨a, s'⟩ | ⟨stop, s'⟩
  · rw [Eval.recorded_ok h, List.findSome?_append, hr s, hk a s']
    rfl
  · rw [Eval.recorded_error h, hr s]

end Record.Returnless

section Run

variable (caller : Caller) (unit : Nat)

mutual

/-- Expressions execute no statements, apart from calls. -/
lemma returnless_evaluate (f : FrameId) :
    ∀ e, (evaluateEvents caller .none unit f e).Returnless
  | .number p x => by
      rw [evaluateEvents]
      exact .cons (fun _ => rfl) .none
  | .identifier p name => by
      rw [evaluateEvents]
      exact .cons (fun _ => rfl) .none
  | .unary p op target => by
      rw [evaluateEvents]
      exact .cons (fun _ => rfl) (returnless_evaluate f target)
  | .binary p op left right => by
      rw [evaluateEvents]
      have hleft := returnless_evaluate f left
      have hright := returnless_evaluate f right
      exact .cons (fun _ => rfl) (hleft.recorded (fun _ => hright) _)
  | .call p callee args => by
      rw [evaluateEvents]
      have hcallee := returnless_evaluate f callee
      have hargs := returnless_evaluateAll f args
      have hcall := fun (_ : Value) => hargs.recorded (fun _ => .none) (evaluateAll caller f args)
      exact .cons (fun _ => rfl) (hcallee.recorded hcall _)

lemma returnless_evaluateAll (f : FrameId) :
    ∀ es, (evaluateAllEvents caller .none unit f es).Returnless
  | [] => by
      rw [evaluateAllEvents]
      exact .none
  | e :: es => by
      rw [evaluateAllEvents]
      have hfirst := returnless_evaluate f e
      have hrest := returnless_evaluateAll f es
      exact hfirst.recorded (fun _ => hrest) _

end

lemma returnless_evaluateOption (f : FrameId) (e : Option Expr) :
    (evaluateOptionEvents caller .none unit f e).Returnless := by
  cases e with
  | some e => exact returnless_evaluate caller unit f e
  | none => exact .none

/-! ### Statements -/

mutual

/-- The first `return` in a statement decides what it comes to. -/
lemma decides_execute (f : FrameId) :
    ∀ st s, Decides caller ((executeEvents releaseOnExit caller .none unit f st s).findSome?
      Event.return?) ((execute releaseOnExit caller unit f st).answer s)
  | .var p name init, s => by
      have hevents : Record.Returnless (.cons (.executes unit f (.var p name init)) _) :=
        .cons (fun _ => rfl) (returnless_evaluateOption caller unit f init)
      rw [executeEvents, hevents s, execute]
      exact Eval.NeverReturns.bind (fun v => .bind fun _ => Eval.neverReturns_normal) s
  | .ret p value, s => by
      rw [executeEvents, execute]
      exact Eval.answer_bind_pure _ _ s
  | .func p name params bodyPos body, s => by
      rw [executeEvents, execute]
      exact Eval.NeverReturns.bind (fun _ => Eval.neverReturns_normal) s
  | .block p bodyPos body, s => by
      rw [executeEvents, Record.cons, List.findSome?_cons_of_isNone rfl, execute_block,
        Eval.answer_inNewFrame, Eval.findSome?_newFrameEvents]
      exact decides_executeAll s.frames.size body (s.extend f).2
  | .expr p e, s => by
      have hevents : Record.Returnless (.cons (.executes unit f (.expr p e)) _) :=
        .cons (fun _ => rfl) (returnless_evaluate caller unit f e)
      rw [executeEvents, hevents s, execute]
      exact Eval.NeverReturns.bind (fun _ => Eval.neverReturns_normal) s

/-- **The first `return` decides** what statements come to. -/
lemma decides_executeAll (f : FrameId) :
    ∀ sts s, Decides caller (firstReturn? caller unit f sts s)
      ((executeAll releaseOnExit caller unit f sts).answer s)
  | [], s => by
      rw [firstReturn?, executeAllEvents, executeAll]
      exact Eval.neverReturns_normal s
  | st :: rest, s => by
      have hst := decides_execute f st s
      rw [firstReturn?, executeAllEvents, Eval.answer, executeAll_cons_apply]
      rcases h : execute releaseOnExit caller unit f st s with ⟨_ | v, s'⟩ | ⟨stop, s'⟩
      · -- the statement executes no `return`, or it would not end normally
        rw [Eval.answer_ok h] at hst
        rw [Eval.recorded_ok h, List.findSome?_append, hst.eq_none, Option.none_or]
        exact decides_executeAll f rest s'
      · rw [Eval.answer_ok h] at hst
        obtain ⟨r, hr, -⟩ := hst.exists_eq_some
        rw [hr] at hst
        rw [Eval.recorded_ok h, List.findSome?_append, hr, Option.some_or]
        exact hst
      · rw [Eval.answer_error h] at hst
        rw [Eval.recorded_error h]
        exact hst

end

end Run

end ClosureCalc
