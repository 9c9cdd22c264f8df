/-
Runs that mirror each other.

Two runs of programs that are alike, from stores that mirror each other, end
alike: both with mirrored values, both with the same error at places that are
alike, or both at the limit on nested calls. The frames that are added on the
way get other numbers in the two runs, so the renaming grows.

* `Eval.Mirrored`: two computations end alike from mirrored stores. It passes
  through binds (`Eval.Mirrored.bind`) and through frames that are entered and
  left (`Eval.Mirrored.inNewFrame`).
* `mirrored_evaluate`, `mirrored_execute`, `mirrored_call`: the parts of two runs
  end alike, whatever the likeness of their programs.
* `call_depends_on_reach`: what a call comes to depends only on what the callee
  and the arguments can reach.
-/
import ClosureCalc.Proofs.Affects
import ClosureCalc.Proofs.Mirror

namespace ClosureCalc

/-! ### Computations that end alike -/

namespace Eval

variable {α α' β β' : Type} {L : Likeness} {ρ : Renaming}

/-- **Results that are alike**: values related by `Q`, or the same reason to stop
at places that are alike. The stores behind them mirror each other. -/
inductive EndMirrored (L : Likeness) (ρ : Renaming) (Q : Renaming → α → α' → Prop) :
    EStateM.Result Stop Store α → EStateM.Result Stop Store α' → Prop
  | ok {a : α} {a' : α'} {s t : Store} (hst : s.Mirrors L ρ t) (ha : Q ρ a a') :
      EndMirrored L ρ Q (.ok a s) (.ok a' t)
  | error {e e' : Error} {s t : Store} (hst : s.Mirrors L ρ t) (he : e.Like L.places e') :
      EndMirrored L ρ Q (.error (.error e) s) (.error (.error e') t)
  | depth {s t : Store} (hst : s.Mirrors L ρ t) :
      EndMirrored L ρ Q (.error .depth s) (.error .depth t)

/-- **Computations that mirror each other**: from mirrored stores they end alike.
The renaming may have become larger then. -/
def Mirrored (L : Likeness) (ρ : Renaming) (x : Eval α) (y : Eval α')
    (Q : Renaming → α → α' → Prop) : Prop :=
  ∀ s t, s.Mirrors L ρ t → ∃ ρ', ρ ≤ ρ' ∧ EndMirrored L ρ' Q (x s) (y t)

variable {x : Eval α} {y : Eval α'} {k : α → Eval β} {l : α' → Eval β'}
variable {Q : Renaming → α → α' → Prop} {Q' : Renaming → β → β' → Prop}

/-- Nothing is added to either store. -/
lemma mirrored_of_endMirrored
    (h : ∀ s t, s.Mirrors L ρ t → EndMirrored L ρ Q (x s) (y t)) : Mirrored L ρ x y Q := by
  intro s t hst
  exact ⟨ρ, le_rfl, h s t hst⟩

lemma mirrored_pure {a : α} {a' : α'} (h : Q ρ a a') :
    Mirrored L ρ (pure a : Eval α) (pure a' : Eval α') Q :=
  mirrored_of_endMirrored fun _ _ hst => .ok hst h

lemma mirrored_fail {e e' : Error} (h : e.Like L.places e') :
    Mirrored L ρ (fail e : Eval α) (fail e' : Eval α') Q :=
  mirrored_of_endMirrored fun _ _ hst => .error hst h

/-- What follows starts from mirrored stores again. -/
lemma Mirrored.bind (hx : Mirrored L ρ x y Q)
    (hk : ∀ ρ' a a', ρ ≤ ρ' → Q ρ' a a' → Mirrored L ρ' (k a) (l a') Q') :
    Mirrored L ρ (x >>= k) (y >>= l) Q' := by
  intro s t hst
  obtain ⟨ρ₁, hρ₁, hend⟩ := hx s t hst
  generalize h : x s = r, h' : y t = r' at hend
  cases hend with
  | @ok a a' s' t' hst' hq =>
    obtain ⟨ρ₂, hρ₂, hend₂⟩ := hk ρ₁ a a' hρ₁ hq s' t' hst'
    rw [bind_ok h, bind_ok h']
    exact ⟨ρ₂, hρ₁.trans hρ₂, hend₂⟩
  | error hst' he =>
    rw [bind_error h, bind_error h']
    exact ⟨ρ₁, hρ₁, .error hst' he⟩
  | depth hst' =>
    rw [bind_error h, bind_error h']
    exact ⟨ρ₁, hρ₁, .depth hst'⟩

/-- Mirrored values, as what is known at the end of a computation. -/
abbrev MirrorsValue (L : Likeness) : Renaming → Value → Value → Prop := fun ρ => Value.Mirrors L ρ

/-- Statements were left the same way, with mirrored values. -/
inductive MirrorsFlow (L : Likeness) (ρ : Renaming) : Flow → Flow → Prop
  | normal : MirrorsFlow L ρ .normal .normal
  | returned {v v' : Value} (hv : v.Mirrors L ρ v') : MirrorsFlow L ρ (.returned v) (.returned v')

lemma MirrorsFlow.value? {flow flow' : Flow} (h : MirrorsFlow L ρ flow flow') :
    Option.Rel (Value.Mirrors L ρ) flow.value? flow'.value? := by
  cases h with
  | normal => exact .none
  | returned hv => exact .some hv

/-- **Statements in new frames.** The frames are renamed while they are in use,
and left with mirrored results. -/
lemma Mirrored.inNewFrame {body body' : FrameId → Eval Flow} {f f' : FrameId} (hf : f' ∈ ρ f)
    (h : ∀ ρ' inner inner', ρ ≤ ρ' → inner' ∈ ρ' inner →
      Mirrored L ρ' (body inner) (body' inner') (MirrorsFlow L)) :
    Mirrored L ρ (inNewFrame releaseOnExit f body) (inNewFrame releaseOnExit f' body')
      (MirrorsFlow L) := by
  intro s t hst
  obtain ⟨ρ₁, hρ₁, hnew, hst₁⟩ := hst.extend hf
  obtain ⟨ρ₂, hρ₂, hend⟩ := h ρ₁ _ _ hρ₁ hnew _ _ hst₁
  have hρ := hρ₁.trans hρ₂
  have hnew₂ := hρ₂ _ _ hnew
  generalize hb : body s.frames.size (s.extend f).2 = r at hend
  generalize hb' : body' t.frames.size (t.extend f').2 = r' at hend
  cases hend with
  | ok hst₂ hflow =>
    rw [inNewFrame_ok hb, inNewFrame_ok hb']
    exact ⟨ρ₂, hρ, .ok (hst₂.leave hnew₂ hflow.value?) hflow⟩
  | error hst₂ he =>
    rw [inNewFrame_error hb, inNewFrame_error hb']
    exact ⟨ρ₂, hρ, .error (hst₂.leave hnew₂ .none) he⟩
  | depth hst₂ =>
    rw [inNewFrame_error hb, inNewFrame_error hb']
    exact ⟨ρ₂, hρ, .depth (hst₂.leave hnew₂ .none)⟩

/-! ### Single operations -/

lemma mirrored_declare {f f' : FrameId} (hf : f' ∈ ρ f) (name : String) {v v' : Value}
    (hv : v.Mirrors L ρ v') {p p' : Position} (hp : L.places p p') :
    Mirrored L ρ (declare f name v p) (declare f' name v' p') fun _ _ _ => True := by
  refine mirrored_of_endMirrored fun s t hst => ?_
  rw [declare, declare, hst.canDeclare hf]
  split
  · exact .ok (hst.bind hf name hv) trivial
  · exact .error hst (.name _ hp)

lemma mirrored_declareAll {f f' : FrameId} {p p' : Position} (hp : L.places p p')
    (names : List String) {vs vs' : List Value} (hf : f' ∈ ρ f) (hvs : MirrorsAll L ρ vs vs') :
    Mirrored L ρ (declareAll f p names vs) (declareAll f' p' names vs') fun _ _ _ => True := by
  induction names generalizing ρ vs vs' with
  | nil =>
    rw [declareAll, declareAll]
    · exact mirrored_pure trivial
    · simp
    · simp
  | cons name names ih =>
    cases hvs with
    | nil => exact mirrored_pure trivial
    | cons hv hvs =>
      rw [declareAll, declareAll]
      refine (mirrored_declare hf name hv hp).bind fun ρ' _ _ hρ _ => ?_
      exact ih (hρ _ _ hf) (MirrorsAll.mono hvs hρ)

lemma mirrored_unary (op : UnaryOp) {p p' : Position} (hp : L.places p p') {v v' : Value}
    (hv : v.Mirrors L ρ v') :
    Mirrored L ρ (unary op p v) (unary op p' v') (MirrorsValue L) := by
  cases hv with
  | number n => exact mirrored_pure (.number _)
  | function hdecl hclosure => exact mirrored_fail (.type _ hp)
  | builtin hb hhome => exact mirrored_fail (.type _ hp)
  | undefined => exact mirrored_fail (.type _ hp)

lemma mirrored_binary (op : BinaryOp) {left left' right right' : Expr}
    (hleft : L.places left.pos left'.pos) (hright : L.places right.pos right'.pos)
    {v v' w w' : Value} (hv : v.Mirrors L ρ v') (hw : w.Mirrors L ρ w') :
    Mirrored L ρ (binary op left right v w) (binary op left' right' v' w')
      (MirrorsValue L) := by
  cases hv with
  | number n =>
    cases hw with
    | number m => exact mirrored_pure (.number _)
    | function hdecl hclosure => exact mirrored_fail (.type _ hright)
    | builtin hb hhome => exact mirrored_fail (.type _ hright)
    | undefined => exact mirrored_fail (.type _ hright)
  | function hdecl hclosure => exact mirrored_fail (.type _ hleft)
  | builtin hb hhome => exact mirrored_fail (.type _ hleft)
  | undefined => exact mirrored_fail (.type _ hleft)

/-- Built-in functions that draw nothing do not depend on the generator; the
others start from the same one. -/
lemma mirrored_builtin {b : Builtin} (hb : b.Draws → L.draws) {args args' : List Value}
    (hargs : MirrorsAll L ρ args args') {p p' : Position} (hp : L.places p p') :
    Mirrored L ρ (builtin b args p) (builtin b args' p') (MirrorsValue L) := by
  refine mirrored_of_endMirrored fun s t hst => ?_
  have hlength : args'.length = args.length := (List.Forall₂.length_eq hargs).symm
  rw [builtin, builtin, hlength, hargs.apply]
  split
  · exact .error hst (.arity _ _ hp)
  · by_cases hdraws : b.Draws
    · rw [hst.generator (hb hdraws)]
      cases b.apply args s.generator with
      | ok result => exact .ok (hst.of_generator fun _ => rfl) (.number _)
      | error complaint => exact .error hst (.type _ hp)
    · rw [b.apply_of_not_draws hdraws args s.generator t.generator]
      have hsame := b.apply_of_not_draws hdraws args s.generator s.generator
      cases hresult : b.apply args s.generator with
      | ok result =>
        rw [hresult] at hsame
        have hg : result.2 = s.generator := congrArg Prod.snd (Except.ok.inj hsame)
        refine .ok (hst.of_generator fun hL => ?_) (.number _)
        rw [hg, hst.generator hL]
      | error complaint => exact .error hst (.type _ hp)

/-- A name that is looked up from a renamed frame stands for a mirrored value. -/
lemma mirrored_identifier {f f' : FrameId} (hf : f' ∈ ρ f) (caller caller' : Caller)
    {p p' : Position} (hp : L.places p p') (name : String) :
    Mirrored L ρ (evaluate caller f (.identifier p name))
      (evaluate caller' f' (.identifier p' name)) (MirrorsValue L) := by
  refine mirrored_of_endMirrored fun s t hst => ?_
  have hfound := hst.get? hf name
  rw [evaluate_identifier, evaluate_identifier]
  generalize s.get? f name = found, t.get? f' name = found' at hfound
  cases hfound with
  | none => exact .error hst (.name _ hp)
  | some hv => exact .ok hst hv

end Eval

/-! ### Evaluation and execution -/

section Run

variable {L : Likeness} {caller caller' : Caller}

/-- **Calls that mirror each other**: of mirrored values, with mirrored
arguments, at places that are alike. -/
def MirroredCalls (L : Likeness) (caller caller' : Caller) : Prop :=
  ∀ {ρ : Renaming} {v v' args args' p p'}, v.Mirrors L ρ v' → MirrorsAll L ρ args args' →
    L.places p p' → Eval.Mirrored L ρ (caller v args p) (caller' v' args' p') (Eval.MirrorsValue L)

mutual

/-- Expressions that are alike have mirrored values. -/
lemma mirrored_evaluate (hL : L.Sound) (hcall : MirroredCalls L caller caller') :
    ∀ {e e' : Expr} {ρ : Renaming} {f f' : FrameId}, L.exprs e e' → f' ∈ ρ f →
      Eval.Mirrored L ρ (evaluate caller f e) (evaluate caller' f' e') (Eval.MirrorsValue L)
  | .number p x, e', ρ, f, f', he, hf => by
      obtain ⟨p', rfl⟩ := hL.number he
      rw [evaluate, evaluate]
      exact Eval.mirrored_pure (.number _)
  | .identifier p name, e', ρ, f, f', he, hf => by
      obtain ⟨p', rfl, hp⟩ := hL.identifier he
      exact Eval.mirrored_identifier hf caller caller' hp name
  | .unary p op target, e', ρ, f, f', he, hf => by
      obtain ⟨p', target', rfl, hp, htarget⟩ := hL.unary he
      rw [evaluate, evaluate]
      refine (mirrored_evaluate hL hcall htarget hf).bind fun ρ' v v' _ hv => ?_
      exact Eval.mirrored_unary op hp hv
  | .binary p op left right, e', ρ, f, f', he, hf => by
      obtain ⟨p', left', right', rfl, hleft, hright⟩ := hL.binary he
      rw [evaluate, evaluate]
      refine (mirrored_evaluate hL hcall hleft hf).bind fun ρ₁ v v' hρ₁ hv => ?_
      refine (mirrored_evaluate hL hcall hright (hρ₁ _ _ hf)).bind fun ρ₂ w w' hρ₂ hw => ?_
      exact Eval.mirrored_binary op (hL.pos hleft) (hL.pos hright) (hv.mono hρ₂) hw
  | .call p callee args, e', ρ, f, f', he, hf => by
      obtain ⟨p', callee', args', rfl, hp, hcallee, hargs⟩ := hL.call he
      rw [evaluate, evaluate]
      refine (mirrored_evaluate hL hcall hcallee hf).bind fun ρ₁ v v' hρ₁ hv => ?_
      refine (mirrored_evaluateAll hL hcall hargs (hρ₁ _ _ hf)).bind fun ρ₂ vs vs' hρ₂ hvs => ?_
      exact hcall (hv.mono hρ₂) hvs hp

/-- Lists of expressions that are alike have mirrored values. -/
lemma mirrored_evaluateAll (hL : L.Sound) (hcall : MirroredCalls L caller caller') :
    ∀ {es es' : List Expr} {ρ : Renaming} {f f' : FrameId}, List.Forall₂ L.exprs es es' →
      f' ∈ ρ f → Eval.Mirrored L ρ (evaluateAll caller f es) (evaluateAll caller' f' es')
        (MirrorsAll L)
  | [], es', ρ, f, f', hes, hf => by
      cases hes
      rw [evaluateAll, evaluateAll]
      exact Eval.mirrored_pure .nil
  | e :: es, es', ρ, f, f', hes, hf => by
      cases hes with
      | cons he hes =>
        rw [evaluateAll, evaluateAll]
        refine (mirrored_evaluate hL hcall he hf).bind fun ρ₁ v v' hρ₁ hv => ?_
        refine (mirrored_evaluateAll hL hcall hes (hρ₁ _ _ hf)).bind fun ρ₂ vs vs' hρ₂ hvs => ?_
        exact Eval.mirrored_pure (.cons (hv.mono hρ₂) hvs)

end

lemma mirrored_evaluateOption (hL : L.Sound) (hcall : MirroredCalls L caller caller')
    {e e' : Option Expr} {ρ : Renaming} {f f' : FrameId} (he : Option.Rel L.exprs e e')
    (hf : f' ∈ ρ f) :
    Eval.Mirrored L ρ (evaluateOption caller f e) (evaluateOption caller' f' e')
      (Eval.MirrorsValue L) := by
  cases he with
  | none => exact Eval.mirrored_pure .undefined
  | some he => exact mirrored_evaluate hL hcall he hf

mutual

/-- Statements that are alike are left alike. -/
lemma mirrored_execute (hL : L.Sound) (hcall : MirroredCalls L caller caller') :
    ∀ {st st' : Stmt} {unit unit' : Nat} {ρ : Renaming} {f f' : FrameId}, L.stmts st st' →
      L.units unit unit' → f' ∈ ρ f →
        Eval.Mirrored L ρ (execute releaseOnExit caller unit f st)
          (execute releaseOnExit caller' unit' f' st') (Eval.MirrorsFlow L)
  | .var p name init, st', unit, unit', ρ, f, f', hst, hunit, hf => by
      obtain ⟨p', init', rfl, hp, hinit⟩ := hL.var hst
      rw [execute, execute]
      refine (mirrored_evaluateOption hL hcall hinit hf).bind fun ρ₁ v v' hρ₁ hv => ?_
      refine (Eval.mirrored_declare (hρ₁ _ _ hf) name hv hp).bind fun ρ₂ _ _ _ _ => ?_
      exact Eval.mirrored_pure .normal
  | .ret p value, st', unit, unit', ρ, f, f', hst, hunit, hf => by
      obtain ⟨p', value', rfl, hvalue⟩ := hL.ret hst
      rw [execute, execute]
      refine (mirrored_evaluateOption hL hcall hvalue hf).bind fun ρ₁ v v' _ hv => ?_
      exact Eval.mirrored_pure (.returned hv)
  | .func p name params bodyPos body, st', unit, unit', ρ, f, f', hst, hunit, hf => by
      obtain ⟨p', bodyPos', body', rfl, hp, hdecl⟩ := hL.func hst hunit
      rw [execute, execute]
      -- the closures of the new functions are the current frames
      refine (Eval.mirrored_declare hf name (.function hdecl hf) hp).bind fun ρ' _ _ _ _ => ?_
      exact Eval.mirrored_pure .normal
  | .block p bodyPos body, st', unit, unit', ρ, f, f', hst, hunit, hf => by
      obtain ⟨p', bodyPos', body', rfl, hbody⟩ := hL.block hst
      rw [execute_block, execute_block]
      refine Eval.Mirrored.inNewFrame hf fun ρ' inner inner' _ hinner => ?_
      exact mirrored_executeAll hL hcall hbody hunit hinner
  | .expr p e, st', unit, unit', ρ, f, f', hst, hunit, hf => by
      obtain ⟨p', e', rfl, he⟩ := hL.expr hst
      rw [execute, execute]
      refine (mirrored_evaluate hL hcall he hf).bind fun ρ' v v' _ _ => ?_
      exact Eval.mirrored_pure .normal

/-- Lists of statements that are alike are left alike. What comes behind a
`return` is not executed in either. -/
lemma mirrored_executeAll (hL : L.Sound) (hcall : MirroredCalls L caller caller') :
    ∀ {sts sts' : List Stmt} {unit unit' : Nat} {ρ : Renaming} {f f' : FrameId},
      L.bodies sts sts' → L.units unit unit' → f' ∈ ρ f →
        Eval.Mirrored L ρ (executeAll releaseOnExit caller unit f sts)
          (executeAll releaseOnExit caller' unit' f' sts') (Eval.MirrorsFlow L)
  | [], sts', unit, unit', ρ, f, f', hsts, hunit, hf => by
      obtain rfl := hL.nil hsts
      rw [executeAll, executeAll]
      exact Eval.mirrored_pure .normal
  | st :: rest, sts', unit, unit', ρ, f, f', hsts, hunit, hf => by
      obtain ⟨st', rest', rfl, hst, hrest⟩ := hL.cons hsts
      rw [executeAll, executeAll]
      by_cases hret : ∃ p value, st = .ret p value
      · obtain ⟨p, value, rfl⟩ := hret
        obtain ⟨p', value', rfl, hvalue⟩ := hL.ret hst
        rw [execute, execute, bind_assoc, bind_assoc]
        refine (mirrored_evaluateOption hL hcall hvalue hf).bind fun ρ₁ v v' _ hv => ?_
        rw [pure_bind, pure_bind]
        exact Eval.mirrored_pure (.returned hv)
      · have hne : ∀ p value, st ≠ .ret p value := fun p value h => hret ⟨p, value, h⟩
        refine (mirrored_execute hL hcall hst hunit hf).bind fun ρ₁ flow flow' hρ₁ hflow => ?_
        cases hflow with
        | normal => exact mirrored_executeAll hL hcall (hrest hne) hunit (hρ₁ _ _ hf)
        | returned hv => exact Eval.mirrored_pure (.returned hv)

end

/-- Calls of declared functions end alike. -/
lemma mirrored_callFunction (hL : L.Sound) (hcall : MirroredCalls L caller caller')
    {decl decl' : Declaration} (hdecl : L.decls decl decl') {ρ : Renaming}
    {closure closure' : FrameId} (hclosure : closure' ∈ ρ closure) {args args' : List Value}
    (hargs : MirrorsAll L ρ args args') {p p' : Position} (hp : L.places p p') :
    Eval.Mirrored L ρ (callFunction releaseOnExit caller decl closure args p)
      (callFunction releaseOnExit caller' decl' closure' args' p') (Eval.MirrorsValue L) := by
  obtain ⟨hparams, hunit, hbody⟩ := hL.decl hdecl
  have hlength : args'.length = args.length := (List.Forall₂.length_eq hargs).symm
  by_cases h : args.length < decl.params.length
  · have h' : args'.length < decl'.params.length := by rwa [hlength, hparams]
    rw [callFunction, callFunction, if_pos h, if_pos h', hlength, hparams]
    exact Eval.mirrored_fail (.arity _ _ hp)
  · have h' : ¬ args'.length < decl'.params.length := by rwa [hlength, hparams]
    rw [callFunction_of_le (Nat.not_lt.1 h), callFunction_of_le (Nat.not_lt.1 h')]
    refine Eval.Mirrored.bind (Eval.Mirrored.inNewFrame hclosure ?_) fun ρ' flow flow' _ hflow => ?_
    · intro ρ₁ inner inner' hρ₁ hinner
      rw [callBody, callBody, hparams]
      refine (Eval.mirrored_declareAll hp _ hinner (hargs.mono hρ₁)).bind fun ρ₂ _ _ hρ₂ _ => ?_
      exact mirrored_executeAll hL hcall hbody hunit (hρ₂ _ _ hinner)
    · refine Eval.mirrored_pure ?_
      cases hflow with
      | normal => exact .undefined
      | returned hv => exact hv

/-- **Calls end alike**, however deep they go. -/
lemma mirrored_call (hL : L.Sound) (limit : Nat) :
    MirroredCalls L (call releaseOnExit limit) (call releaseOnExit limit) := by
  induction limit with
  | zero =>
    intro ρ v v' args args' p p' hv hargs hp
    exact Eval.mirrored_of_endMirrored fun s t hst => .depth hst
  | succ n ih =>
    intro ρ v v' args args' p p' hv hargs hp
    cases hv with
    | number n => exact Eval.mirrored_fail (.type _ hp)
    | function hdecl hclosure => exact mirrored_callFunction hL ih hdecl hclosure hargs hp
    | builtin hb hhome => exact Eval.mirrored_builtin hb hargs hp
    | undefined => exact Eval.mirrored_fail (.type _ hp)

end Run

/-! ### What a call depends on -/

/-- A call terminates: with some limit on nested calls it does not reach it. -/
def Terminates (v : Value) (args : List Value) (p : Position) (s : Store) : Prop :=
  ∃ limit, ∀ s', call releaseOnExit limit v args p s ≠ .error .depth s'

/-- **A call depends only on what the callee and the arguments can reach.** Let
two stores mirror each other as far as that goes, where no function that draws
random numbers can be reached, and differ in all else. Then a call terminates in
both or in neither. It stops with the same error in both, or yields values that
mirror each other when the new frames are renamed as well. -/
theorem call_depends_on_reach {homes : FrameId → FrameId → Prop} {ρ : Renaming} {s t : Store}
    (hst : s.Mirrors (.same homes) ρ t) {v v' : Value} (hv : v.Mirrors (.same homes) ρ v')
    {args args' : List Value} (hargs : MirrorsAll (.same homes) ρ args args') (p : Position) :
    (Terminates v args p s ↔ Terminates v' args' p t) ∧
      ∀ limit,
        (∀ stop s', call releaseOnExit limit v args p s = .error stop s' →
          ∃ t', call releaseOnExit limit v' args' p t = .error stop t') ∧
        ∀ w s', call releaseOnExit limit v args p s = .ok w s' →
          ∃ w' t' ρ', call releaseOnExit limit v' args' p t = .ok w' t' ∧ ρ ≤ ρ' ∧
            w.Mirrors (.same homes) ρ' w' ∧ s'.Mirrors (.same homes) ρ' t' := by
  have hend := fun limit =>
    mirrored_call (Likeness.sound_same homes) limit hv hargs (rfl : p = p) s t hst
  constructor
  · refine exists_congr fun limit => ?_
    obtain ⟨ρ', -, h⟩ := hend limit
    generalize call releaseOnExit limit v args p s = r,
      call releaseOnExit limit v' args' p t = r' at h
    cases h <;> simp
  · intro limit
    obtain ⟨ρ', hρ, h⟩ := hend limit
    constructor
    · intro stop s' hx
      generalize call releaseOnExit limit v' args' p t = r' at h ⊢
      rw [hx] at h
      cases h with
      | @error e e' _ t' _ he => exact ⟨t', by rw [he.eq]⟩
      | @depth _ t' _ => exact ⟨t', rfl⟩
    · intro w s' hx
      generalize call releaseOnExit limit v' args' p t = r' at h ⊢
      rw [hx] at h
      cases h with
      | @ok _ w' _ t' hst' hw => exact ⟨w', t', ρ', rfl, hρ, hw, hst'⟩

/-- A function that returns a closure over its argument, called in an empty scope
and beside frames of others. -/
theorem call_depends_on_reach_closure :
    let keep : Stmt := .func .start "keep" [] .start [.ret .start (some (.identifier .start "n"))]
    let make : Declaration :=
      ⟨0, .start, "make", ["n"], [keep, .ret .start (some (.identifier .start "keep"))]⟩
    let s : Store := ⟨#[⟨[], []⟩], #[], 0, ⟨0⟩⟩
    let t : Store := ⟨#[⟨[], [("n", 0)]⟩, ⟨[0], []⟩, ⟨[], []⟩], #[.undefined], 3, ⟨7⟩⟩
    let ρ : Renaming := PEquiv.single 0 2
    let homes : FrameId → FrameId → Prop := fun _ _ => False
    s.Mirrors (.same homes) ρ t ∧
      (Value.function make 0).Mirrors (.same homes) ρ (.function make 2) ∧
      MirrorsAll (.same homes) ρ [.undefined] [.undefined] ∧
      ((Terminates (.function make 0) [.undefined] .start s ↔
          Terminates (.function make 2) [.undefined] .start t) ∧
        ∀ limit,
          (∀ stop s', call releaseOnExit limit (.function make 0) [.undefined] .start s =
              .error stop s' →
            ∃ t', call releaseOnExit limit (.function make 2) [.undefined] .start t =
              .error stop t') ∧
          ∀ w s', call releaseOnExit limit (.function make 0) [.undefined] .start s = .ok w s' →
            ∃ w' t' ρ', call releaseOnExit limit (.function make 2) [.undefined] .start t =
                .ok w' t' ∧ ρ ≤ ρ' ∧ w.Mirrors (.same homes) ρ' w' ∧
              s'.Mirrors (.same homes) ρ' t') := by
  intro keep make s t ρ homes
  have hroot : ∀ f f' : FrameId, f' ∈ ρ f → f = 0 ∧ f' = 2 := fun f f' hf =>
    (PEquiv.mem_single_iff f 0 f' 2).1 hf
  have hst : s.Mirrors (.same homes) ρ t := by
    refine ⟨fun f f' hf => ?_, fun f f' hf => ?_, fun f f' hf => ?_, False.elim⟩
    · obtain ⟨rfl, rfl⟩ := hroot f f' hf
      decide
    · obtain ⟨rfl, rfl⟩ := hroot f f' hf
      exact .nil
    · obtain ⟨rfl, rfl⟩ := hroot f f' hf
      exact .nil
  have hv : (Value.function make 0).Mirrors (.same homes) ρ (.function make 2) :=
    .function rfl (PEquiv.mem_single 0 2)
  have hargs : MirrorsAll (.same homes) ρ [.undefined] [.undefined] := .cons .undefined .nil
  exact ⟨hst, hv, hargs, call_depends_on_reach hst hv hargs .start⟩

end ClosureCalc
