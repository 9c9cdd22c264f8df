/-
Programs that differ in their places only.

Two programs may have the same shape and stand at other places, each in its own
text. They run alike: the evaluator looks at no place, and only puts places into
errors and declarations.

* `Expr.Alike`, `Stmt.Alike`, `Declaration.Alike`: parts of programs that are the
  same but for their places, which are related in a given way;
  `Expr.locations`, `Stmt.locations`: all places in such a part.
* `Likeness.located`: such parts as a likeness of two runs
  (`Likeness.sound_located`); `Likeness.oneOf`: the same with several ways to relate places,
  one for each part as a whole.
* `mirrored_executeUnit`, `mirrored_runProgram`: units that are alike run alike.
* `Store.mirrors_self`: what can be reached in a store mirrors itself, if the functions
  in it are like themselves.
* `Value.Alike`, `SameAnswer`: the same value and names, or the same error, but for
  the places in them; `Eval.EndMirrored.sameAnswer`.
-/
import ClosureCalc.Proofs.Locality
import ClosureCalc.Proofs.Reach

namespace ClosureCalc

/-- Options that are related are related in each weaker way. -/
lemma optionRel_imp {α β : Type} {R S : α → β → Prop} (hRS : ∀ a b, R a b → S a b)
    {a : Option α} {b : Option β} (h : Option.Rel R a b) : Option.Rel S a b := by
  cases h with
  | none => exact .none
  | some h => exact .some (hRS _ _ h)

/-! ### Parts of programs -/

section Trees

variable {P Q : Position → Position → Prop}

/-- **Expressions that are alike**: the same, with places that are related. -/
inductive Expr.Alike (P : Position → Position → Prop) : Expr → Expr → Prop
  | number {p p' : Position} (hp : P p p') (value : Float) :
      Alike P (.number p value) (.number p' value)
  | identifier {p p' : Position} (hp : P p p') (name : String) :
      Alike P (.identifier p name) (.identifier p' name)
  | unary {p p' : Position} {e e' : Expr} (hp : P p p') (op : UnaryOp) (h : Alike P e e') :
      Alike P (.unary p op e) (.unary p' op e')
  | binary {p p' : Position} {left left' right right' : Expr} (hp : P p p') (op : BinaryOp)
      (hleft : Alike P left left') (hright : Alike P right right') :
      Alike P (.binary p op left right) (.binary p' op left' right')
  | call {p p' : Position} {callee callee' : Expr} {args args' : List Expr} (hp : P p p')
      (hcallee : Alike P callee callee') (hargs : List.Forall₂ (Alike P) args args') :
      Alike P (.call p callee args) (.call p' callee' args')

/-- **Statements that are alike**: the same, with places that are related. -/
inductive Stmt.Alike (P : Position → Position → Prop) : Stmt → Stmt → Prop
  | var {p p' : Position} {init init' : Option Expr} (hp : P p p') (name : String)
      (hinit : Option.Rel (Expr.Alike P) init init') :
      Alike P (.var p name init) (.var p' name init')
  | ret {p p' : Position} {value value' : Option Expr} (hp : P p p')
      (hvalue : Option.Rel (Expr.Alike P) value value') : Alike P (.ret p value) (.ret p' value')
  | func {p p' bodyPos bodyPos' : Position} {body body' : List Stmt} (hp : P p p')
      (name : String) (params : List String) (hbodyPos : P bodyPos bodyPos')
      (hbody : List.Forall₂ (Alike P) body body') :
      Alike P (.func p name params bodyPos body) (.func p' name params bodyPos' body')
  | block {p p' bodyPos bodyPos' : Position} {body body' : List Stmt} (hp : P p p')
      (hbodyPos : P bodyPos bodyPos') (hbody : List.Forall₂ (Alike P) body body') :
      Alike P (.block p bodyPos body) (.block p' bodyPos' body')
  | expr {p p' : Position} {e e' : Expr} (hp : P p p') (h : e.Alike P e') :
      Alike P (.expr p e) (.expr p' e')

/-- Declarations that are alike: the same, with places that are related, and in
any two units. -/
structure Declaration.Alike (P : Position → Position → Prop) (decl decl' : Declaration) :
    Prop where
  pos : P decl.pos decl'.pos
  name : decl'.name = decl.name
  params : decl'.params = decl.params
  body : List.Forall₂ (Stmt.Alike P) decl.body decl'.body

/-- Expressions that are alike have related places. -/
lemma Expr.Alike.pos {e e' : Expr} : e.Alike P e' → P e.pos e'.pos
  | .number hp _ => hp
  | .identifier hp _ => hp
  | .unary hp _ _ => hp
  | .binary hp _ _ _ => hp
  | .call hp _ _ => hp

mutual

lemma Expr.Alike.mono (hPQ : ∀ p p', P p p' → Q p p') {e e' : Expr} :
    e.Alike P e' → e.Alike Q e'
  | .number hp value => .number (hPQ _ _ hp) value
  | .identifier hp name => .identifier (hPQ _ _ hp) name
  | .unary hp op h => .unary (hPQ _ _ hp) op (h.mono hPQ)
  | .binary hp op hleft hright => .binary (hPQ _ _ hp) op (hleft.mono hPQ) (hright.mono hPQ)
  | .call hp hcallee hargs =>
      .call (hPQ _ _ hp) (hcallee.mono hPQ) (Expr.Alike.mono_all hPQ hargs)

lemma Expr.Alike.mono_all (hPQ : ∀ p p', P p p' → Q p p') {es es' : List Expr} :
    List.Forall₂ (Expr.Alike P) es es' → List.Forall₂ (Expr.Alike Q) es es'
  | .nil => .nil
  | .cons h hs => .cons (h.mono hPQ) (Expr.Alike.mono_all hPQ hs)

end

mutual

lemma Stmt.Alike.mono (hPQ : ∀ p p', P p p' → Q p p') {st st' : Stmt} :
    st.Alike P st' → st.Alike Q st'
  | .var hp name hinit => .var (hPQ _ _ hp) name (optionRel_imp (fun _ _ h => h.mono hPQ) hinit)
  | .ret hp hvalue => .ret (hPQ _ _ hp) (optionRel_imp (fun _ _ h => h.mono hPQ) hvalue)
  | .func hp name params hbodyPos hbody =>
      .func (hPQ _ _ hp) name params (hPQ _ _ hbodyPos) (Stmt.Alike.mono_all hPQ hbody)
  | .block hp hbodyPos hbody =>
      .block (hPQ _ _ hp) (hPQ _ _ hbodyPos) (Stmt.Alike.mono_all hPQ hbody)
  | .expr hp h => .expr (hPQ _ _ hp) (h.mono hPQ)

lemma Stmt.Alike.mono_all (hPQ : ∀ p p', P p p' → Q p p') {sts sts' : List Stmt} :
    List.Forall₂ (Stmt.Alike P) sts sts' → List.Forall₂ (Stmt.Alike Q) sts sts'
  | .nil => .nil
  | .cons h hs => .cons (h.mono hPQ) (Stmt.Alike.mono_all hPQ hs)

end

mutual

/-- Each expression is like itself. -/
lemma Expr.Alike.refl (hP : ∀ p, P p p) : ∀ e : Expr, e.Alike P e
  | .number p value => .number (hP p) value
  | .identifier p name => .identifier (hP p) name
  | .unary p op e => .unary (hP p) op (Expr.Alike.refl hP e)
  | .binary p op left right =>
      .binary (hP p) op (Expr.Alike.refl hP left) (Expr.Alike.refl hP right)
  | .call p callee args =>
      .call (hP p) (Expr.Alike.refl hP callee) (Expr.Alike.refl_all hP args)

lemma Expr.Alike.refl_all (hP : ∀ p, P p p) : ∀ es : List Expr, List.Forall₂ (Expr.Alike P) es es
  | [] => .nil
  | e :: es => .cons (Expr.Alike.refl hP e) (Expr.Alike.refl_all hP es)

end

lemma Expr.Alike.refl_option (hP : ∀ p, P p p) : ∀ e : Option Expr,
    Option.Rel (Expr.Alike P) e e
  | none => .none
  | some e => .some (Expr.Alike.refl hP e)

mutual

/-- Each statement is like itself. -/
lemma Stmt.Alike.refl (hP : ∀ p, P p p) : ∀ st : Stmt, st.Alike P st
  | .var p name init => .var (hP p) name (Expr.Alike.refl_option hP init)
  | .ret p value => .ret (hP p) (Expr.Alike.refl_option hP value)
  | .func p name params bodyPos body =>
      .func (hP p) name params (hP bodyPos) (Stmt.Alike.refl_all hP body)
  | .block p bodyPos body => .block (hP p) (hP bodyPos) (Stmt.Alike.refl_all hP body)
  | .expr p e => .expr (hP p) (Expr.Alike.refl hP e)

lemma Stmt.Alike.refl_all (hP : ∀ p, P p p) :
    ∀ sts : List Stmt, List.Forall₂ (Stmt.Alike P) sts sts
  | [] => .nil
  | st :: sts => .cons (Stmt.Alike.refl hP st) (Stmt.Alike.refl_all hP sts)

end

lemma Declaration.Alike.mono (hPQ : ∀ p p', P p p' → Q p p') {decl decl' : Declaration}
    (h : decl.Alike P decl') : decl.Alike Q decl' :=
  ⟨hPQ _ _ h.pos, h.name, h.params, Stmt.Alike.mono_all hPQ h.body⟩

/-- Each declaration is like itself. -/
lemma Declaration.Alike.refl (hP : ∀ p, P p p) (decl : Declaration) : decl.Alike P decl :=
  ⟨hP _, rfl, rfl, Stmt.Alike.refl_all hP _⟩

/-! ### All places of a part -/

mutual

/-- All places in an expression. -/
def Expr.locations : Expr → List Position
  | .number p _ => [p]
  | .identifier p _ => [p]
  | .unary p _ target => p :: target.locations
  | .binary p _ left right => p :: (left.locations ++ right.locations)
  | .call p callee args => p :: (callee.locations ++ Expr.locationsAll args)

/-- All places in some expressions. -/
def Expr.locationsAll : List Expr → List Position
  | [] => []
  | e :: es => e.locations ++ Expr.locationsAll es

end

mutual

/-- All places in a statement. -/
def Stmt.locations : Stmt → List Position
  | .var p _ init => p :: Expr.locationsAll init.toList
  | .ret p value => p :: Expr.locationsAll value.toList
  | .func p _ _ bodyPos body => p :: bodyPos :: Stmt.locationsAll body
  | .block p bodyPos body => p :: bodyPos :: Stmt.locationsAll body
  | .expr p e => p :: e.locations

/-- All places in some statements. -/
def Stmt.locationsAll : List Stmt → List Position
  | [] => []
  | st :: rest => st.locations ++ Stmt.locationsAll rest

end

/-- All places in a declaration. -/
def Declaration.locations (decl : Declaration) : List Position :=
  decl.pos :: Stmt.locationsAll decl.body

section Within

variable {A : Set Position}

/-- Places that are related, and of which the first one is in a set. -/
def WithinAnd (A : Set Position) (P : Position → Position → Prop) (p p' : Position) : Prop :=
  p ∈ A ∧ P p p'

mutual

/-- Only the places in an expression matter to what it is like. -/
lemma Expr.Alike.within {e e' : Expr} (h : e.Alike P e') (hA : ∀ p ∈ e.locations, p ∈ A) :
    e.Alike (WithinAnd A P) e' := by
  cases h with
  | number hp value => exact .number ⟨hA _ List.mem_cons_self, hp⟩ value
  | identifier hp name => exact .identifier ⟨hA _ List.mem_cons_self, hp⟩ name
  | unary hp op h =>
    obtain ⟨hpos, htarget⟩ := List.forall_mem_cons.1 hA
    exact .unary ⟨hpos, hp⟩ op (h.within htarget)
  | binary hp op hleft hright =>
    obtain ⟨hpos, hparts⟩ := List.forall_mem_cons.1 hA
    obtain ⟨hl, hr⟩ := List.forall_mem_append.1 hparts
    exact .binary ⟨hpos, hp⟩ op (hleft.within hl) (hright.within hr)
  | call hp hcallee hargs =>
    obtain ⟨hpos, hparts⟩ := List.forall_mem_cons.1 hA
    obtain ⟨hc, ha⟩ := List.forall_mem_append.1 hparts
    exact .call ⟨hpos, hp⟩ (hcallee.within hc) (Expr.Alike.within_all hargs ha)

lemma Expr.Alike.within_all {es es' : List Expr} (h : List.Forall₂ (Expr.Alike P) es es')
    (hA : ∀ p ∈ Expr.locationsAll es, p ∈ A) :
    List.Forall₂ (Expr.Alike (WithinAnd A P)) es es' := by
  cases h with
  | nil => exact .nil
  | cons h hs =>
    obtain ⟨hfirst, hrest⟩ := List.forall_mem_append.1 hA
    exact .cons (h.within hfirst) (Expr.Alike.within_all hs hrest)

end

lemma Expr.Alike.within_option {e e' : Option Expr} (h : Option.Rel (Expr.Alike P) e e')
    (hA : ∀ p ∈ Expr.locationsAll e.toList, p ∈ A) :
    Option.Rel (Expr.Alike (WithinAnd A P)) e e' := by
  cases h with
  | none => exact .none
  | some h => exact .some (h.within fun p hp => hA p (List.mem_append_left _ hp))

mutual

/-- Only the places in a statement matter to what it is like. -/
lemma Stmt.Alike.within {st st' : Stmt} (h : st.Alike P st') (hA : ∀ p ∈ st.locations, p ∈ A) :
    st.Alike (WithinAnd A P) st' := by
  cases h with
  | var hp name hinit =>
    obtain ⟨hpos, hparts⟩ := List.forall_mem_cons.1 hA
    exact .var ⟨hpos, hp⟩ name (Expr.Alike.within_option hinit hparts)
  | ret hp hvalue =>
    obtain ⟨hpos, hparts⟩ := List.forall_mem_cons.1 hA
    exact .ret ⟨hpos, hp⟩ (Expr.Alike.within_option hvalue hparts)
  | func hp name params hbodyPos hbody =>
    obtain ⟨hpos, hparts⟩ := List.forall_mem_cons.1 hA
    obtain ⟨hb, hsts⟩ := List.forall_mem_cons.1 hparts
    exact .func ⟨hpos, hp⟩ name params ⟨hb, hbodyPos⟩ (Stmt.Alike.within_all hbody hsts)
  | block hp hbodyPos hbody =>
    obtain ⟨hpos, hparts⟩ := List.forall_mem_cons.1 hA
    obtain ⟨hb, hsts⟩ := List.forall_mem_cons.1 hparts
    exact .block ⟨hpos, hp⟩ ⟨hb, hbodyPos⟩ (Stmt.Alike.within_all hbody hsts)
  | expr hp h =>
    obtain ⟨hpos, he⟩ := List.forall_mem_cons.1 hA
    exact .expr ⟨hpos, hp⟩ (h.within he)

lemma Stmt.Alike.within_all {sts sts' : List Stmt} (h : List.Forall₂ (Stmt.Alike P) sts sts')
    (hA : ∀ p ∈ Stmt.locationsAll sts, p ∈ A) :
    List.Forall₂ (Stmt.Alike (WithinAnd A P)) sts sts' := by
  cases h with
  | nil => exact .nil
  | cons h hs =>
    obtain ⟨hfirst, hrest⟩ := List.forall_mem_append.1 hA
    exact .cons (h.within hfirst) (Stmt.Alike.within_all hs hrest)

end

/-- Only the places in a declaration matter to what it is like. -/
lemma Declaration.Alike.within {decl decl' : Declaration} (h : decl.Alike P decl')
    (hA : ∀ p ∈ decl.locations, p ∈ A) : decl.Alike (WithinAnd A P) decl' :=
  have ⟨hpos, hbody⟩ := List.forall_mem_cons.1 hA
  ⟨⟨hpos, h.pos⟩, h.name, h.params, Stmt.Alike.within_all h.body hbody⟩

end Within

end Trees

/-! ### The likeness -/

/-- **Programs that are the same but for their places**, as a likeness of their
runs. They may be different units, and may draw random numbers. -/
def Likeness.located (P : Position → Position → Prop) : Likeness where
  places := P
  units _ _ := True
  exprs := Expr.Alike P
  stmts := Stmt.Alike P
  bodies := List.Forall₂ (Stmt.Alike P)
  decls := Declaration.Alike P
  homes := Eq
  draws := True

lemma Likeness.sound_located (P : Position → Position → Prop) : (located P).Sound where
  pos h := h.pos
  number := by
    rintro p x _ h
    cases h with
    | @number _ p' _ _ => exact ⟨p', rfl⟩
  identifier := by
    rintro p name _ h
    cases h with
    | @identifier _ p' hp _ => exact ⟨p', rfl, hp⟩
  unary := by
    rintro p op target _ h
    cases h with
    | @unary _ p' _ e' hp _ h => exact ⟨p', e', rfl, hp, h⟩
  binary := by
    rintro p op left right _ h
    cases h with
    | @binary _ p' _ left' _ right' _ _ hleft hright =>
      exact ⟨p', left', right', rfl, hleft, hright⟩
  call := by
    rintro p callee args _ h
    cases h with
    | @call _ p' _ callee' _ args' hp hcallee hargs =>
      exact ⟨p', callee', args', rfl, hp, hcallee, hargs⟩
  var := by
    rintro p name init _ h
    cases h with
    | @var _ p' _ init' hp _ hinit => exact ⟨p', init', rfl, hp, hinit⟩
  ret := by
    rintro p value _ h
    cases h with
    | @ret _ p' _ value' _ hvalue => exact ⟨p', value', rfl, hvalue⟩
  func := by
    rintro p name params bodyPos body _ unit unit' h _
    cases h with
    | @func _ p' _ bodyPos' _ body' hp _ _ _ hbody =>
      exact ⟨p', bodyPos', body', rfl, hp, hp, rfl, rfl, hbody⟩
  block := by
    rintro p bodyPos body _ h
    cases h with
    | @block _ p' _ bodyPos' _ body' _ _ hbody => exact ⟨p', bodyPos', body', rfl, hbody⟩
  expr := by
    rintro p e _ h
    cases h with
    | @expr _ p' _ e' _ h => exact ⟨p', e', rfl, h⟩
  nil h := by
    cases h
    rfl
  cons := by
    rintro st rest _ h
    cases h with
    | @cons _ st' _ rest' hst hrest => exact ⟨st', rest', rfl, hst, fun _ => hrest⟩
  decl h := ⟨h.params, trivial, h.body⟩

/-- **Programs that are the same but for their places**, where these are related in one of
several ways, for each part as a whole. -/
def Likeness.oneOf {ι : Type} (R : ι → Position → Position → Prop) : Likeness where
  places p p' := ∃ i, R i p p'
  units _ _ := True
  exprs e e' := ∃ i, e.Alike (R i) e'
  stmts st st' := ∃ i, st.Alike (R i) st'
  bodies sts sts' := ∃ i, List.Forall₂ (Stmt.Alike (R i)) sts sts'
  decls decl decl' := ∃ i, decl.Alike (R i) decl'
  homes := Eq
  draws := True

lemma Likeness.sound_oneOf {ι : Type} (R : ι → Position → Position → Prop) : (oneOf R).Sound where
  pos := fun ⟨i, h⟩ => ⟨i, h.pos⟩
  number := by
    rintro p x _ ⟨i, h⟩
    exact (sound_located (R i)).number h
  identifier := by
    rintro p name _ ⟨i, h⟩
    obtain ⟨p', h', hp⟩ := (sound_located (R i)).identifier h
    exact ⟨p', h', i, hp⟩
  unary := by
    rintro p op target _ ⟨i, h⟩
    obtain ⟨p', target', h', hp, htarget⟩ := (sound_located (R i)).unary h
    exact ⟨p', target', h', ⟨i, hp⟩, i, htarget⟩
  binary := by
    rintro p op left right _ ⟨i, h⟩
    obtain ⟨p', left', right', h', hleft, hright⟩ := (sound_located (R i)).binary h
    exact ⟨p', left', right', h', ⟨i, hleft⟩, i, hright⟩
  call := by
    rintro p callee args _ ⟨i, h⟩
    obtain ⟨p', callee', args', h', hp, hcallee, hargs⟩ := (sound_located (R i)).call h
    exact ⟨p', callee', args', h', ⟨i, hp⟩, ⟨i, hcallee⟩, hargs.imp fun _ _ ha => ⟨i, ha⟩⟩
  var := by
    rintro p name init _ ⟨i, h⟩
    obtain ⟨p', init', h', hp, hinit⟩ := (sound_located (R i)).var h
    exact ⟨p', init', h', ⟨i, hp⟩, optionRel_imp (fun _ _ he => ⟨i, he⟩) hinit⟩
  ret := by
    rintro p value _ ⟨i, h⟩
    obtain ⟨p', value', h', hvalue⟩ := (sound_located (R i)).ret h
    exact ⟨p', value', h', optionRel_imp (fun _ _ he => ⟨i, he⟩) hvalue⟩
  func := by
    rintro p name params bodyPos body _ unit unit' ⟨i, h⟩ hunit
    obtain ⟨p', bodyPos', body', h', hp, hdecl⟩ := (sound_located (R i)).func h hunit
    exact ⟨p', bodyPos', body', h', ⟨i, hp⟩, i, hdecl⟩
  block := by
    rintro p bodyPos body _ ⟨i, h⟩
    obtain ⟨p', bodyPos', body', h', hbody⟩ := (sound_located (R i)).block h
    exact ⟨p', bodyPos', body', h', i, hbody⟩
  expr := by
    rintro p e _ ⟨i, h⟩
    obtain ⟨p', e', h', he⟩ := (sound_located (R i)).expr h
    exact ⟨p', e', h', i, he⟩
  nil := fun ⟨i, h⟩ => (sound_located (R i)).nil h
  cons := by
    rintro st rest _ ⟨i, h⟩
    obtain ⟨st', rest', h', hst, hrest⟩ := (sound_located (R i)).cons h
    exact ⟨st', rest', h', ⟨i, hst⟩, fun hret => ⟨i, hrest hret⟩⟩
  decl := fun ⟨i, h⟩ => ⟨h.params, trivial, i, h.body⟩

/-! ### Units -/

section Units

variable {L : Likeness} {caller caller' : Caller} {unit unit' : Nat}

/-- A statement that is like another one is an expression if that is one. -/
lemma Likeness.Sound.ne_expr (hL : L.Sound) {st st' : Stmt} (h : L.stmts st st')
    (hunit : L.units unit unit') (hst : ∀ p e, st ≠ .expr p e) : ∀ p e, st' ≠ .expr p e := by
  intro q e
  cases st with
  | var p name init =>
    obtain ⟨p', init', rfl, -⟩ := hL.var h
    simp
  | ret p value =>
    obtain ⟨p', value', rfl, -⟩ := hL.ret h
    simp
  | func p name params bodyPos body =>
    obtain ⟨p', bodyPos', body', rfl, -⟩ := hL.func h hunit
    simp
  | block p bodyPos body =>
    obtain ⟨p', bodyPos', body', rfl, -⟩ := hL.block h
    simp
  | expr p e => exact absurd rfl (hst p e)

/-- **The statements of a unit** that are alike end alike. What comes behind a
`return` is not executed in either. -/
lemma mirrored_executeUnit (hL : L.Sound) (hcall : MirroredCalls L caller caller')
    (hunit : L.units unit unit') {sts sts' : List Stmt} (hsts : L.bodies sts sts')
    {ρ : Renaming} {f f' : FrameId} (hf : f' ∈ ρ f)
    {last last' : Option Value} (hlast : Option.Rel (Value.Mirrors L ρ) last last') :
    Eval.Mirrored L ρ (executeUnit releaseOnExit caller unit f sts last)
      (executeUnit releaseOnExit caller' unit' f' sts' last')
      fun ρ => Option.Rel (Value.Mirrors L ρ) := by
  induction sts generalizing sts' ρ last last' with
  | nil =>
    obtain rfl := hL.nil hsts
    exact Eval.mirrored_pure hlast
  | cons st rest ih =>
    obtain ⟨st', rest', rfl, hst, hrest⟩ := hL.cons hsts
    by_cases hexpr : ∃ p e, st = .expr p e
    · obtain ⟨p, e, rfl⟩ := hexpr
      obtain ⟨p', e', rfl, he⟩ := hL.expr hst
      rw [executeUnit, executeUnit]
      refine (mirrored_evaluate hL hcall he hf).bind fun ρ' v v' hρ hv => ?_
      exact ih (hrest fun _ _ => Stmt.noConfusion) (hρ _ _ hf) (.some hv)
    · have hne : ∀ p e, st ≠ .expr p e := fun p e he => hexpr ⟨p, e, he⟩
      rw [executeUnit_cons hne, executeUnit_cons (hL.ne_expr hst hunit hne)]
      by_cases hret : ∃ p value, st = .ret p value
      · obtain ⟨p, value, rfl⟩ := hret
        obtain ⟨p', value', rfl, hvalue⟩ := hL.ret hst
        rw [execute, execute, bind_assoc, bind_assoc]
        refine (mirrored_evaluateOption hL hcall hvalue hf).bind fun ρ' v v' _ hv => ?_
        rw [pure_bind, pure_bind]
        exact Eval.mirrored_pure (.some hv)
      · have hrest := hrest fun p value h => hret ⟨p, value, h⟩
        refine (mirrored_execute hL hcall hst hunit hf).bind fun ρ' flow flow' hρ hflow => ?_
        cases hflow with
        | normal => exact ih hrest (hρ _ _ hf) .none
        | returned hv => exact Eval.mirrored_pure (.some hv)

/-- Units that answer alike: with mirrored values and the same new names. -/
structure MirrorsEvaluation (L : Likeness) (ρ : Renaming) (answer answer' : Evaluation) :
    Prop where
  value : Option.Rel (Value.Mirrors L ρ) answer.value answer'.value
  declared : answer'.declared = answer.declared

namespace Store.Mirrors

variable {ρ : Renaming} {s t : Store} {f f' : FrameId}

/-- Frames that are renamed have the same names. -/
lemma names (h : s.Mirrors L ρ t) (hf : f' ∈ ρ f) : t.names f' = s.names f := by
  have hbindings := h.bindings f f' hf
  rw [Store.names, Store.names]
  generalize (s.frame f).bindings = bs, (t.frame f').bindings = bs' at hbindings
  induction hbindings with
  | nil => rfl
  | cons hb _ ih => rw [List.map_cons, List.map_cons, hb.name, ih]

/-- The numbers of units do not matter. -/
lemma of_units (h : s.Mirrors L ρ t) (n m : Nat) :
    Mirrors L ρ { s with units := n } { t with units := m } where
  lt := h.lt
  outer := h.outer
  bindings f f' hf := (h.bindings f f' hf).imp fun _ _ hb => ⟨hb.name, hb.lt, hb.lt', hb.value⟩
  generator := h.generator

end Store.Mirrors

/-- **Units that are alike run alike.** -/
lemma mirrored_runProgram (hL : L.Sound) (limit : Nat) {p p' : Program}
    (hunits : ∀ unit unit', L.units unit unit') (hbody : L.bodies p.body p'.body)
    {ρ : Renaming} {root root' : FrameId} (hroot : root' ∈ ρ root) :
    Eval.Mirrored L ρ (runProgram releaseOnExit limit root p)
      (runProgram releaseOnExit limit root' p') (MirrorsEvaluation L) := by
  intro s t hst
  have hcall : MirroredCalls L (call releaseOnExit limit) (call releaseOnExit limit) :=
    mirrored_call hL limit
  obtain ⟨ρ', hρ, hend⟩ := mirrored_executeUnit hL hcall (hunits s.units t.units) hbody hroot .none
    s.newUnit.2 t.newUnit.2 (hst.of_units _ _)
  refine ⟨ρ', hρ, ?_⟩
  have hroot' := hρ _ _ hroot
  rw [runProgram_apply, runProgram_apply, hst.names hroot]
  generalize executeUnit releaseOnExit (call releaseOnExit limit) s.units root p.body none
    s.newUnit.2 = r, executeUnit releaseOnExit (call releaseOnExit limit) t.units root' p'.body none
    t.newUnit.2 = r' at hend
  cases hend with
  | ok hst' hvalue =>
    refine .ok hst' ⟨hvalue, ?_⟩
    rw [hst'.names hroot']
  | error hst' he => exact .error hst' he
  | depth hst' => exact .depth hst'

end Units

/-! ### The store in front of a run -/

/-- Frames that keep their numbers: those below `n`. -/
def Renaming.below (n : Nat) : Renaming := PEquiv.ofSet {f | f < n}

lemma Renaming.mem_below {n : Nat} {f f' : FrameId} : f' ∈ below n f ↔ f' = f ∧ f < n := by
  rw [below, PEquiv.mem_ofSet_iff]
  constructor
  · rintro ⟨rfl, h⟩
    exact ⟨rfl, h⟩
  · rintro ⟨rfl, h⟩
    exact ⟨rfl, h⟩

section Self

variable {L : Likeness} {ρ : Renaming} {P : Position → Position → Prop}

/-- A value mirrors itself if it is like itself and the frame that it was declared in
keeps its number. -/
lemma Value.mirrors_self (hhomes : ∀ f, L.homes f f) {v : Value}
    (hdecl : ∀ decl closure, v = .function decl closure → L.decls decl decl ∧ closure ∈ ρ closure)
    (hdraws : ∀ b home, v = .builtin b home → b.Draws → L.draws) : v.Mirrors L ρ v := by
  cases v with
  | number n => exact .number n
  | function decl closure =>
    obtain ⟨hdecl, hclosure⟩ := hdecl decl closure rfl
    exact .function hdecl hclosure
  | builtin b home => exact .builtin (hdraws b home rfl) (hhomes home)
  | undefined => exact .undefined

/-- **What can be reached mirrors itself.** Let some frames keep their numbers, let them
point to each other only, and let the functions in the store be like themselves. -/
lemma Store.mirrors_self {s : Store} {K : Set FrameId} (hhomes : ∀ f, L.homes f f)
    (hdecls : ∀ i decl closure, s.slot i = .function decl closure → L.decls decl decl)
    (hρ : ∀ f f', f' ∈ ρ f ↔ f' = f ∧ f ∈ K) (hlt : ∀ f ∈ K, f < s.frames.size)
    (hclosed : ∀ f ∈ K, ∀ g, s.Points f g → g ∈ K)
    (hslots : ∀ f ∈ K, ∀ b ∈ (s.frame f).bindings, b.2 < s.slots.size)
    (hdraws : ∀ f ∈ K, ∀ b ∈ (s.frame f).bindings, ∀ c home,
      s.slot b.2 = .builtin c home → c.Draws → L.draws) : s.Mirrors L ρ s where
  lt f f' hf := by
    obtain ⟨rfl, hK⟩ := (hρ _ _).1 hf
    exact ⟨hlt _ hK, hlt _ hK⟩
  outer f f' hf := by
    obtain ⟨rfl, hK⟩ := (hρ _ _).1 hf
    refine List.forall₂_same.2 fun g hg => ?_
    exact (hρ _ _).2 ⟨rfl, hclosed _ hK g (.outer hg)⟩
  bindings f f' hf := by
    obtain ⟨rfl, hK⟩ := (hρ _ _).1 hf
    refine List.forall₂_same.2 fun b hb => ⟨rfl, hslots _ hK b hb, hslots _ hK b hb, ?_⟩
    refine Value.mirrors_self hhomes (fun decl closure hv => ?_) (hdraws _ hK b hb)
    exact ⟨hdecls b.2 decl closure hv, (hρ _ _).2 ⟨rfl, hclosed _ hK closure (.closure hb hv)⟩⟩
  generator _ := rfl

/-- In a well-formed store all frames that exist point to each other only. -/
lemma Store.WellFormed.mirrors_below {s : Store} (h : s.WellFormed) (hhomes : ∀ f, L.homes f f)
    (hdecls : ∀ i decl closure, s.slot i = .function decl closure → L.decls decl decl)
    (hdraws : L.draws) : s.Mirrors L (.below s.frames.size) s := by
  refine Store.mirrors_self hhomes hdecls (fun _ _ => Renaming.mem_below) (fun _ hf => hf) ?_
    (fun f _ => h.slot_lt f) fun _ _ _ _ _ _ _ _ => hdraws
  exact fun f _ g hp => h.lt_of_points hp

/-- **A well-formed store mirrors itself.** -/
lemma Store.WellFormed.mirrors_self {s : Store} (h : s.WellFormed) (hP : ∀ p, P p p) :
    s.Mirrors (.located P) (.below s.frames.size) s :=
  h.mirrors_below (fun _ => rfl) (fun _ decl _ _ => .refl hP decl) trivial

end Self

/-! ### The same answer -/

/-- **Values that are alike**: they are of the same kind and have the same text, numbers and
built-in functions are the same, and declared functions are the same but for their places,
which are related by `P`. -/
structure Value.Alike (P : Position → Position → Prop) (v v' : Value) : Prop where
  kind : v'.kind = v.kind
  number : ∀ n, v = .number n ↔ v' = .number n
  builtin : ∀ b home, v = .builtin b home ↔ v' = .builtin b home
  function : ∀ decl closure, v = .function decl closure →
    ∃ decl' closure', v' = .function decl' closure' ∧ decl.Alike P decl'
  text : v'.text = v.text

/-- **The same answer** to two units: values that are alike and the same new names, or
errors of the same kind with the same message, at places related by `P`, or the limit on
nested calls in both. -/
inductive SameAnswer (P : Position → Position → Prop) :
    EStateM.Result Stop Store Evaluation → EStateM.Result Stop Store Evaluation → Prop
  | ok {a a' : Evaluation} {s t : Store} (hvalue : Option.Rel (Value.Alike P) a.value a'.value)
      (hdeclared : a'.declared = a.declared) : SameAnswer P (.ok a s) (.ok a' t)
  | error {e e' : Error} {s t : Store} (hkind : e'.kind = e.kind)
      (hmessage : e'.message = e.message) (hpos : Option.Rel P e.pos? e'.pos?) :
      SameAnswer P (.error (.error e) s) (.error (.error e') t)
  | depth {s t : Store} : SameAnswer P (.error .depth s) (.error .depth t)

section Answers

variable {P Q : Position → Position → Prop}

lemma Value.Alike.mono (hPQ : ∀ p p', P p p' → Q p p') {v v' : Value} (h : v.Alike P v') :
    v.Alike Q v' where
  kind := h.kind
  number := h.number
  builtin := h.builtin
  function decl closure hv :=
    let ⟨decl', closure', hv', hdecl⟩ := h.function decl closure hv
    ⟨decl', closure', hv', hdecl.mono hPQ⟩
  text := h.text

lemma SameAnswer.mono {r r' : EStateM.Result Stop Store Evaluation} (h : SameAnswer P r r')
    (hPQ : ∀ p p', P p p' → Q p p') : SameAnswer Q r r' := by
  cases h with
  | ok hvalue hdeclared => exact .ok (optionRel_imp (fun _ _ hv => hv.mono hPQ) hvalue) hdeclared
  | error hkind hmessage hpos => exact .error hkind hmessage (optionRel_imp hPQ hpos)
  | depth => exact .depth

/-- Values that mirror each other are alike. -/
lemma Value.Mirrors.alike {ρ : Renaming} {v v' : Value} (h : v.Mirrors (.located P) ρ v') :
    v.Alike P v' := by
  cases h with
  | number n =>
    exact ⟨rfl, fun _ => Iff.rfl, fun _ _ => by simp, fun _ _ hv => Value.noConfusion hv, rfl⟩
  | function hdecl hclosure =>
    refine ⟨rfl, fun _ => by simp, fun _ _ => by simp, fun decl closure hv => ?_, ?_⟩
    · cases hv
      exact ⟨_, _, rfl, hdecl⟩
    · rw [Value.text, Value.text, hdecl.name, hdecl.params]
  | builtin hb hhome =>
    cases hhome
    exact ⟨rfl, fun _ => by simp, fun _ _ => Iff.rfl, fun _ _ hv => Value.noConfusion hv, rfl⟩
  | undefined =>
    exact ⟨rfl, fun _ => by simp, fun _ _ => by simp, fun _ _ hv => Value.noConfusion hv, rfl⟩

/-- **Units that end alike answer the same.** -/
lemma Eval.EndMirrored.sameAnswer {ρ : Renaming} {r r' : EStateM.Result Stop Store Evaluation}
    (h : EndMirrored (.located P) ρ (MirrorsEvaluation (.located P)) r r') : SameAnswer P r r' := by
  cases h with
  | ok _ ha => exact .ok (optionRel_imp (fun _ _ hv => hv.alike) ha.value) ha.declared
  | error _ he =>
    cases he with
    | name fault hp => exact .error rfl rfl (.some hp)
    | arity required supplied hp => exact .error rfl rfl (.some hp)
    | type fault hp => exact .error rfl rfl (.some hp)
  | depth _ => exact .depth

end Answers

end ClosureCalc
