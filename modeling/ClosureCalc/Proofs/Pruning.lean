/-
Statements behind a `return`.

A list of statements is executed up to its first `return` at the most. So what stands
behind that in a program, in a block or in the body of a function can be left out, and
nothing of it is missed later on.

* `Stmt.pruned`, `Program.pruned`: what is left if this is done everywhere;
  `Declaration.PrunesTo`: declared functions that correspond then.
* `Likeness.pruned`: the same as a likeness of two runs (`Likeness.sound_pruned`).
* `SameOutcome`: units that come to the same in two runs.
* `Session.mirrored_answers`: sessions go on alike from stores that mirror each other.
* `behind_return_is_dead`: programs and later units come to the same.
-/
import ClosureCalc.Proofs.Relocation
import ClosureCalc.Proofs.Returns

namespace ClosureCalc

/-! ### Pruned programs -/

/-- Whether a statement is a `return`. -/
def Stmt.isReturn : Stmt → Bool
  | .ret _ _ => true
  | _ => false

mutual

/-- A statement in which nothing stands behind a `return`. -/
def Stmt.pruned : Stmt → Stmt
  | .var p name init => .var p name init
  | .ret p value => .ret p value
  | .func p name params bodyPos body => .func p name params bodyPos (Stmt.prunedAll body)
  | .block p bodyPos body => .block p bodyPos (Stmt.prunedAll body)
  | .expr p e => .expr p e

/-- Statements up to the first `return` among them, each of them pruned. -/
def Stmt.prunedAll : List Stmt → List Stmt
  | [] => []
  | st :: rest => st.pruned :: if st.isReturn then [] else Stmt.prunedAll rest

end

/-- A program in which nothing stands behind a `return`. -/
def Program.pruned (p : Program) : Program := ⟨p.pos, Stmt.prunedAll p.body⟩

/-- **Declared functions that correspond**: the same, in any two units, but for what
stands behind a `return` in the body. -/
structure Declaration.PrunesTo (decl decl' : Declaration) : Prop where
  pos : decl'.pos = decl.pos
  name : decl'.name = decl.name
  params : decl'.params = decl.params
  body : decl'.body = decl.body ∨ decl'.body = Stmt.prunedAll decl.body

/-! ### The likeness -/

/-- **Programs of which one may be pruned**, as a likeness of their runs. They may draw
random numbers. -/
def Likeness.pruned : Likeness where
  places := Eq
  units _ _ := True
  exprs := Eq
  stmts st st' := st' = st ∨ st' = st.pruned
  bodies sts sts' := sts' = sts ∨ sts' = Stmt.prunedAll sts
  decls := Declaration.PrunesTo
  homes := Eq
  draws := True

lemma Likeness.sound_pruned : pruned.Sound where
  pos h := congrArg Expr.pos h
  number := (sound_same Eq).number
  identifier := (sound_same Eq).identifier
  unary := (sound_same Eq).unary
  binary := (sound_same Eq).binary
  call := (sound_same Eq).call
  var := by
    rintro p name init st' h
    obtain rfl : st' = .var p name init := h.elim id id
    exact (sound_same Eq).var rfl
  ret := by
    rintro p value st' h
    obtain rfl : st' = .ret p value := h.elim id id
    exact (sound_same Eq).ret rfl
  func := by
    rintro p name params bodyPos body st' unit unit' (rfl | rfl) -
    · exact ⟨p, bodyPos, body, rfl, rfl, rfl, rfl, rfl, .inl rfl⟩
    · exact ⟨p, bodyPos, Stmt.prunedAll body, rfl, rfl, rfl, rfl, rfl, .inr rfl⟩
  block := by
    rintro p bodyPos body st' (rfl | rfl)
    · exact ⟨p, bodyPos, body, rfl, .inl rfl⟩
    · exact ⟨p, bodyPos, Stmt.prunedAll body, rfl, .inr rfl⟩
  expr := by
    rintro p e st' h
    obtain rfl : st' = .expr p e := h.elim id id
    exact ⟨p, e, rfl, rfl⟩
  nil h := h.elim id id
  cons := by
    rintro st rest sts' (rfl | rfl)
    · exact ⟨st, rest, rfl, .inl rfl, fun _ => .inl rfl⟩
    · refine ⟨st.pruned, _, rfl, .inr rfl, fun hne => .inr ?_⟩
      have hreturn : st.isReturn = false := by
        cases st with
        | ret p value => exact absurd rfl (hne p value)
        | _ => rfl
      rw [hreturn]
      rfl
  decl h := ⟨h.params, trivial, h.body⟩

/-! ### Outcomes -/

/-- **Units that come to the same** in two runs: to mirrored values and the same new
names, or to the same reason to stop. -/
inductive SameOutcome (L : Likeness) (ρ : Renaming) :
    Except Stop Evaluation → Except Stop Evaluation → Prop
  | ok {answer answer' : Evaluation} (h : MirrorsEvaluation L ρ answer answer') :
      SameOutcome L ρ (.ok answer) (.ok answer')
  | error (stop : Stop) : SameOutcome L ρ (.error stop) (.error stop)

section Outcomes

variable {L : Likeness} {ρ ρ' : Renaming}

lemma SameOutcome.mono {out out' : Except Stop Evaluation} (h : SameOutcome L ρ out out')
    (hρ : ρ ≤ ρ') : SameOutcome L ρ' out out' := by
  cases h with
  | ok h => exact .ok ⟨optionRel_imp (fun _ _ hv => hv.mono hρ) h.value, h.declared⟩
  | error stop => exact .error stop

/-- One of the two stops at the limit on nested calls exactly if the other one does. -/
lemma SameOutcome.eq_depth_iff {out out' : Except Stop Evaluation}
    (h : SameOutcome L ρ out out') : out = .error .depth ↔ out' = .error .depth := by
  cases h with
  | ok h => simp
  | error stop => rfl

/-- Results that are alike, where places are the same. -/
lemma Eval.EndMirrored.sameOutcome (hplaces : L.places = Eq) {x y : Eval Evaluation}
    {s t : Store} (h : EndMirrored L ρ (MirrorsEvaluation L) (x s) (y t)) :
    SameOutcome L ρ (x.answer s) (y.answer t) ∧ (x.after s).Mirrors L ρ (y.after t) := by
  rw [answer, answer, after, after]
  generalize x s = r, y t = r' at h
  cases h with
  | ok hst ha => exact ⟨.ok ha, hst⟩
  | error hst he =>
    rw [hplaces] at he
    rw [he.eq]
    exact ⟨.error _, hst⟩
  | depth hst => exact ⟨.error _, hst⟩

end Outcomes

/-! ### Sessions -/

namespace Session

/-- What a unit comes to in a session, and the store behind it. -/
lemma fst_step (s : Session) (exit : ExitRule) (limit : Nat) (source : String) :
    (s.step exit limit source).1 = (interpret exit limit s.root source).answer s.store := by
  rw [step, Eval.answer]
  cases interpret exit limit s.root source s.store <;> rfl

variable {L : Likeness} {ρ : Renaming} {a b : Session}

/-- **A unit in two sessions** whose stores mirror each other. -/
lemma mirrored_step (hL : L.Sound) (hself : ∀ sts, L.bodies sts sts) (hplaces : L.places = Eq)
    (hunits : ∀ unit unit', L.units unit unit') (hroot : b.root ∈ ρ a.root)
    (hst : a.store.Mirrors L ρ b.store) (limit : Nat) (source : String) :
    ∃ ρ', ρ ≤ ρ' ∧
      SameOutcome L ρ' (a.step releaseOnExit limit source).1
        (b.step releaseOnExit limit source).1 ∧
      (a.step releaseOnExit limit source).2.store.Mirrors L ρ'
        (b.step releaseOnExit limit source).2.store := by
  rw [fst_step, fst_step, store_step, store_step, interpret, interpret]
  cases parse source with
  | error e => exact ⟨ρ, le_rfl, .error _, hst⟩
  | ok p =>
    obtain ⟨ρ', hρ, hend⟩ :=
      mirrored_runProgram hL limit hunits (hself p.body) hroot a.store b.store hst
    exact ⟨ρ', hρ, hend.sameOutcome hplaces⟩

/-- **Sessions go on alike** from stores that mirror each other. -/
lemma mirrored_answers (hL : L.Sound) (hself : ∀ sts, L.bodies sts sts) (hplaces : L.places = Eq)
    (hunits : ∀ unit unit', L.units unit unit') (hroot : b.root ∈ ρ a.root)
    (hst : a.store.Mirrors L ρ b.store) (limit : Nat) (sources : List String) :
    ∃ ρ', ρ ≤ ρ' ∧
      List.Forall₂ (SameOutcome L ρ') (a.answers releaseOnExit limit sources)
        (b.answers releaseOnExit limit sources) ∧
      (a.after releaseOnExit limit sources).store.Mirrors L ρ'
        (b.after releaseOnExit limit sources).store := by
  induction sources generalizing a b ρ with
  | nil => exact ⟨ρ, le_rfl, .nil, hst⟩
  | cons source rest ih =>
    obtain ⟨ρ₁, hρ₁, hfirst, hst₁⟩ :=
      mirrored_step hL hself hplaces hunits hroot hst limit source
    have hroot₁ : (b.step releaseOnExit limit source).2.root ∈
        ρ₁ (a.step releaseOnExit limit source).2.root := by
      rw [root_step, root_step]
      exact hρ₁ _ _ hroot
    obtain ⟨ρ₂, hρ₂, hrest, hst₂⟩ := ih hroot₁ hst₁
    exact ⟨ρ₂, hρ₁.trans hρ₂, .cons (hfirst.mono hρ₂) hrest, hst₂⟩

end Session

/-- **What stands behind a `return` is dead.** A program is run in the scope of any
session, and pruned in the same scope. One run terminates if and only if the other one
does. Whatever the limit on nested calls, they stop with the same error, or come to the
same value, but for what is pruned in functions, and declare the same names. So do all
units that are run behind them. -/
theorem behind_return_is_dead {start : Session} (h : start.WellFormed) (p : Program) :
    let outcome (limit : Nat) (p : Program) :=
      (runProgram releaseOnExit limit start.root p).answer start.store
    let behind (limit : Nat) (p : Program) : Session :=
      { start with store := (runProgram releaseOnExit limit start.root p).after start.store }
    ((∃ limit, outcome limit p ≠ .error .depth) ↔
        ∃ limit, outcome limit p.pruned ≠ .error .depth) ∧
      ∀ limit later, ∃ ρ : Renaming, Renaming.below start.store.frames.size ≤ ρ ∧
        SameOutcome .pruned ρ (outcome limit p) (outcome limit p.pruned) ∧
        List.Forall₂ (SameOutcome .pruned ρ)
          ((behind limit p).answers releaseOnExit limit later)
          ((behind limit p.pruned).answers releaseOnExit limit later) ∧
        ((behind limit p).after releaseOnExit limit later).store.Mirrors .pruned ρ
          ((behind limit p.pruned).after releaseOnExit limit later).store := by
  intro outcome behind
  have hself : start.store.Mirrors .pruned (.below start.store.frames.size) start.store :=
    h.store.mirrors_below (fun _ => rfl) (fun _ _ _ _ => ⟨rfl, rfl, rfl, .inl rfl⟩) trivial
  have hroot : start.root ∈ Renaming.below start.store.frames.size start.root :=
    Renaming.mem_below.2 ⟨rfl, h.root_lt⟩
  have hrun : ∀ limit, ∃ ρ : Renaming, Renaming.below start.store.frames.size ≤ ρ ∧
      SameOutcome .pruned ρ (outcome limit p) (outcome limit p.pruned) ∧
      (behind limit p).store.Mirrors .pruned ρ (behind limit p.pruned).store := by
    intro limit
    have hbody : Likeness.pruned.bodies p.body p.pruned.body := .inr rfl
    obtain ⟨ρ, hρ, hend⟩ := mirrored_runProgram Likeness.sound_pruned limit
      (fun _ _ => trivial) hbody hroot _ _ hself
    exact ⟨ρ, hρ, hend.sameOutcome rfl⟩
  refine ⟨exists_congr fun limit => ?_, fun limit later => ?_⟩
  · obtain ⟨ρ, -, hsame, -⟩ := hrun limit
    exact not_congr hsame.eq_depth_iff
  · obtain ⟨ρ₁, hρ₁, hfirst, hst⟩ := hrun limit
    have hroot₁ : (behind limit p.pruned).root ∈ ρ₁ (behind limit p).root := hρ₁ _ _ hroot
    obtain ⟨ρ₂, hρ₂, hlater, hst'⟩ := Session.mirrored_answers Likeness.sound_pruned
      (fun _ => .inl rfl) rfl (fun _ _ => trivial) hroot₁ hst limit later
    exact ⟨ρ₂, hρ₁.trans hρ₂, hfirst.mono hρ₂, hlater, hst'⟩

/-- A function and a block with a statement behind their `return`. What stands behind the
block is not pruned, although it is not executed. The function is called by a later unit. -/
theorem behind_return_is_dead_block :
    let x : Expr := .identifier .start "x"
    let returns (rest : List Stmt) : Stmt :=
      .func .start "f" ["x"] .start (.ret .start (some x) :: rest)
    let block (rest : List Stmt) : Stmt :=
      .block .start .start (.ret .start (some (.identifier .start "f")) :: rest)
    let shown : Stmt := .expr .start x
    let p : Program := ⟨.start, [returns [shown], block [.var .start "x" none], shown]⟩
    let q : Program := ⟨.start, [returns [], block [], shown]⟩
    let start := Session.bare ⟨0⟩
    let outcome (p : Program) := (runProgram releaseOnExit 4 start.root p).answer start.store
    let behind (p : Program) : Session :=
      { start with store := (runProgram releaseOnExit 4 start.root p).after start.store }
    start.WellFormed ∧ p.pruned = q ∧
      ∃ ρ : Renaming, SameOutcome .pruned ρ (outcome p) (outcome q) ∧
        List.Forall₂ (SameOutcome .pruned ρ) ((behind p).answers releaseOnExit 4 ["f(f)", "f()"])
          ((behind q).answers releaseOnExit 4 ["f(f)", "f()"]) := by
  intro x returns block shown p q start outcome behind
  have hstart : start.WellFormed := Session.wellFormed_bare ⟨0⟩
  have hpruned : p.pruned = q := rfl
  obtain ⟨ρ, -, hfirst, hlater, -⟩ := (behind_return_is_dead hstart p).2 4 ["f(f)", "f()"]
  rw [hpruned] at hfirst hlater
  exact ⟨hstart, hpruned, ρ, hfirst, hlater⟩

end ClosureCalc
