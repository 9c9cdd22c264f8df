/-
What a unit declares and answers.

The statements of a unit are executed one after the other, until one of them returns or
fails. Those in front of it declare the names that the root frame has afterwards;
nothing that happens in calls or in blocks adds to them.

* `completed`: how many statements end normally, one after the other.
* `names_executeAll`: the names that statements leave in their frame.
* `EndsWith`: the value of statements that do not return, which is the one of an
  expression at their end.
* `units_declare_and_answer`: both of these for the unit that a program is.
-/
import ClosureCalc.Proofs.Bindings
import ClosureCalc.Proofs.Joining
import ClosureCalc.Proofs.Returns

namespace ClosureCalc

/-- **How many statements end normally**, one after the other, before one of them
returns or fails. -/
def completed (caller : Caller) (unit : Nat) (f : FrameId) : List Stmt → Store → Nat
  | [], _ => 0
  | st :: rest, s =>
    match execute releaseOnExit caller unit f st s with
    | .ok .normal s' => completed caller unit f rest s' + 1
    | _ => 0

/-- **The value of statements that do not return**: that of the expression at their end,
evaluated behind the statements in front of it. If there is none at their end, they have
no value. -/
def EndsWith (caller : Caller) (unit : Nat) (f : FrameId) (sts : List Stmt) (s s' : Store)
    (value : Option Value) : Prop :=
  match sts.getLast? with
  | some (.expr _ e) => ∃ t v,
      executeAll releaseOnExit caller unit f sts.dropLast s = .ok .normal t ∧
      evaluate caller f e t = .ok v s' ∧ value = some v
  | _ => value = none

section Statements

variable {caller : Caller} {calls : CallRecord} {unit : Nat} {f : FrameId} {s s' : Store}
variable {st : Stmt} {sts rest : List Stmt}

/-! ### Names -/

/-- A statement that ends normally leaves the name that it declares, if any, in its
frame; one that does not end normally leaves none. -/
lemma names_execute (hcall : ∀ v args p, (caller v args p).Affects ∅ (calls v args p))
    (hf : f < s.frames.size) (unit : Nat) (st : Stmt) :
    (∀ s', execute releaseOnExit caller unit f st s = .ok .normal s' →
        s'.names f = s.names f ++ st.declared?.toList) ∧
      ((∀ s', execute releaseOnExit caller unit f st s ≠ .ok .normal s') →
        ((execute releaseOnExit caller unit f st).after s).names f = s.names f) := by
  have hkept : ∀ {s'}, s.Extends ∅ s' → s'.names f = s.names f := fun h => by
    rw [Store.names, h.frame_eq hf (Set.notMem_empty f), Store.names]
  cases hd : st.declared? with
  | none =>
    have h := (affects_execute hcall unit f st s).grows
    rw [Stmt.changes_of_declared?_eq_none hd] at h
    refine ⟨fun s' hs' => ?_, fun _ => hkept h⟩
    rw [Eval.after_ok hs'] at h
    rw [hkept h, Option.toList_none, List.append_nil]
  | some name =>
    rcases execute_declaring (s := s) hcall unit f hd with ⟨s₁, v, h, -, he⟩ | ⟨s₁, stop, h, he⟩
    · refine ⟨fun s' hs' => ?_, fun hnot => absurd he (hnot _)⟩
      obtain rfl : s₁.bind f name v = s' := by
        rw [he] at hs'
        cases hs'
        rfl
      rw [Store.names_bind (hf.trans_le h.frames_le), hkept h]
      rfl
    · refine ⟨fun s' hs' => ?_, fun _ => ?_⟩
      · rw [he] at hs'
        cases hs'
      · rw [Eval.after_error he, hkept h]

/-- **The names that statements leave in their frame**, also if they return or fail: the
old ones, and those of the declarations among the statements that ended normally. -/
lemma names_executeAll (hcall : ∀ v args p, (caller v args p).Affects ∅ (calls v args p))
    (hf : f < s.frames.size) :
    ((executeAll releaseOnExit caller unit f sts).after s).names f =
      s.names f ++ (sts.take (completed caller unit f sts s)).filterMap Stmt.declared? := by
  induction sts generalizing s with
  | nil => exact (List.append_nil _).symm
  | cons st rest ih =>
    obtain ⟨hnormal, hnot⟩ := names_execute hcall hf unit st
    have hgrows := (affects_execute hcall unit f st s).grows.frames_le
    rw [Eval.after, executeAll_cons_apply, completed]
    rcases h : execute releaseOnExit caller unit f st s with ⟨_ | v, s'⟩ | ⟨stop, s'⟩
    · rw [Eval.after_ok h] at hgrows
      have hrest := ih (hf.trans_le hgrows)
      rw [hnormal s' h, List.append_assoc] at hrest
      rw [List.take_succ_cons, List.filterMap_cons]
      cases hd : st.declared? <;> rw [hd] at hrest <;> exact hrest
    all_goals
      have hsame := hnot fun s' hs' => by cases h.symm.trans hs'
      rw [List.take_zero, List.filterMap_nil, List.append_nil]
    · rwa [Eval.after_ok h] at hsame
    · rwa [Eval.after_error h] at hsame

/-! ### Values -/

/-- Statements that run through do so up to the last one. -/
lemma executeAll_concat_normal
    (h : executeAll releaseOnExit caller unit f (sts ++ [st]) s = .ok .normal s') :
    ∃ t, executeAll releaseOnExit caller unit f sts s = .ok .normal t ∧
      execute releaseOnExit caller unit f st t = .ok .normal s' := by
  induction sts generalizing s with
  | nil =>
    rw [List.nil_append, executeAll_cons_apply] at h
    rcases hst : execute releaseOnExit caller unit f st s with ⟨_ | v, s₁⟩ | ⟨stop, s₁⟩ <;>
      rw [hst] at h <;> cases h
    exact ⟨s, rfl, hst⟩
  | cons first sts ih =>
    rw [List.cons_append, executeAll_cons_apply] at h
    rw [executeAll_cons_apply]
    rcases hfirst : execute releaseOnExit caller unit f first s with ⟨_ | v, s₁⟩ | ⟨stop, s₁⟩ <;>
      rw [hfirst] at h
    · exact ih h
    · cases h
    · cases h

/-- A unit of one statement that ends normally. -/
lemma executeUnit_singleton (last : Option Value)
    (h : execute releaseOnExit caller unit f st s = .ok .normal s') :
    (∃ p e v, st = .expr p e ∧ evaluate caller f e s = .ok v s' ∧
        executeUnit releaseOnExit caller unit f [st] last s = .ok (some v) s') ∨
      (∀ p e, st ≠ .expr p e) ∧
        executeUnit releaseOnExit caller unit f [st] last s = .ok none s' := by
  by_cases hexpr : ∃ p e, st = .expr p e
  · obtain ⟨p, e, rfl⟩ := hexpr
    rw [execute] at h
    rcases he : evaluate caller f e s with ⟨v, s₁⟩ | ⟨stop, s₁⟩
    · rw [Eval.bind_ok he] at h
      cases h
      exact .inl ⟨p, e, v, rfl, he, Eval.bind_ok he _⟩
    · rw [Eval.bind_error he] at h
      cases h
  · have hne : ∀ p e, st ≠ .expr p e := fun p e he => hexpr ⟨p, e, he⟩
    refine .inr ⟨hne, ?_⟩
    rw [executeUnit_cons hne, Eval.bind_ok h]
    rfl

/-- A unit that returns or fails does so like its statements. -/
lemma executeUnit_of_not_normal (caller : Caller) (unit : Nat) (f : FrameId) (sts : List Stmt)
    (last : Option Value) (s : Store) :
    (∀ v s', executeAll releaseOnExit caller unit f sts s = .ok (.returned v) s' →
        executeUnit releaseOnExit caller unit f sts last s = .ok (some v) s') ∧
      ∀ stop s', executeAll releaseOnExit caller unit f sts s = .error stop s' →
        executeUnit releaseOnExit caller unit f sts last s = .error stop s' := by
  have hgoes := executeUnit_append releaseOnExit caller unit f sts last s
  refine ⟨fun v s' h => ?_, fun stop s' h => ?_⟩
  all_goals
    rw [h] at hgoes
    have hself := hgoes []
    rwa [List.append_nil] at hself

/-- **A unit that runs through** has the value that it ends with. -/
lemma executeUnit_of_normal (h : executeAll releaseOnExit caller unit f sts s = .ok .normal s') :
    ∃ value, executeUnit releaseOnExit caller unit f sts none s = .ok value s' ∧
      EndsWith caller unit f sts s s' value := by
  rcases List.eq_nil_or_concat sts with rfl | ⟨init, st, rfl⟩
  · cases h
    exact ⟨none, rfl, rfl⟩
  · rw [List.concat_eq_append] at h ⊢
    obtain ⟨t, hinit, hlast⟩ := executeAll_concat_normal h
    have hgoes := executeUnit_append releaseOnExit caller unit f init none s
    rw [hinit] at hgoes
    obtain ⟨last, hunit⟩ := hgoes
    rcases executeUnit_singleton last hlast with ⟨p, e, v, rfl, he, hv⟩ | ⟨hne, hnone⟩
    · refine ⟨some v, (hunit _).trans hv, ?_⟩
      rw [EndsWith, List.getLast?_concat, List.dropLast_concat]
      exact ⟨t, v, hinit, he, rfl⟩
    · refine ⟨none, (hunit _).trans hnone, ?_⟩
      rw [EndsWith, List.getLast?_concat]
      cases st with
      | expr p e => exact absurd rfl (hne p e)
      | _ => rfl

/-- **The first `return` decides** what a unit comes to. If there is none, a unit that does
not fail runs through. -/
lemma executeUnit_of_decides {first : Option Return}
    (h : Decides caller first ((executeAll releaseOnExit caller unit f sts).answer s)) :
    (∀ r, first = some r →
        (executeUnit releaseOnExit caller unit f sts none).answer s = (r.answer caller).map some) ∧
      (first = none → ∀ value s',
        executeUnit releaseOnExit caller unit f sts none s = .ok value s' →
          EndsWith caller unit f sts s s' value) := by
  obtain ⟨hreturned, herror⟩ := executeUnit_of_not_normal caller unit f sts none s
  rcases hall : executeAll releaseOnExit caller unit f sts s with ⟨_ | v, t⟩ | ⟨stop, t⟩
  · rw [Eval.answer_ok hall] at h
    obtain ⟨value, hvalue, hends⟩ := executeUnit_of_normal hall
    refine ⟨fun r hr => absurd (h.eq_none.symm.trans hr) nofun, fun _ value' s' hs' => ?_⟩
    cases hvalue.symm.trans hs'
    exact hends
  · rw [Eval.answer_ok hall] at h
    obtain ⟨r, hr, hv⟩ := h.exists_eq_some
    refine ⟨fun r' hr' => ?_, fun hnone => absurd (hr.symm.trans hnone) nofun⟩
    obtain rfl : r = r' := Option.some.inj (hr.symm.trans hr')
    rw [Eval.answer_ok (hreturned v t hall), hv]
    rfl
  · rw [Eval.answer_error hall] at h
    have hstop := herror stop t hall
    refine ⟨fun r hr => ?_, fun _ value s' hs' => ?_⟩
    · rw [Eval.answer_error hstop, h.answer_eq hr]
      rfl
    · cases hstop.symm.trans hs'

/-- The store behind a unit is the one behind its statements, executed like any others. -/
lemma after_executeUnit (caller : Caller) (unit : Nat) (f : FrameId) (sts : List Stmt) (s : Store) :
    (executeUnit releaseOnExit caller unit f sts none).after s =
      (executeAll releaseOnExit caller unit f sts).after s := by
  obtain ⟨hreturned, herror⟩ := executeUnit_of_not_normal caller unit f sts none s
  rcases h : executeAll releaseOnExit caller unit f sts s with ⟨_ | v, s'⟩ | ⟨stop, s'⟩
  · obtain ⟨value, hvalue, -⟩ := executeUnit_of_normal h
    rw [Eval.after_ok h, Eval.after_ok hvalue]
  · rw [Eval.after_ok h, Eval.after_ok (hreturned v s' h)]
  · rw [Eval.after_error h, Eval.after_error (herror stop s' h)]

end Statements

section Programs

variable {limit : Nat} {root : FrameId} {p : Program} {s s' : Store}

lemma answer_runProgram (limit : Nat) (root : FrameId) (p : Program) (s : Store) :
    ((runProgram releaseOnExit limit root p).answer s).map Evaluation.value =
      (executeUnit releaseOnExit (call releaseOnExit limit) s.units root p.body none).answer
        s.newUnit.2 := by
  rw [Eval.answer, Eval.answer, runProgram_apply]
  cases executeUnit releaseOnExit (call releaseOnExit limit) s.units root p.body none
    s.newUnit.2 <;> rfl

/-- A program that succeeds answers with the value of its statements and the names that
the root frame has gained. -/
lemma runProgram_ok {answer : Evaluation} (h : runProgram releaseOnExit limit root p s =
    .ok answer s') :
    answer.declared = (s'.names root).drop (s.names root).length ∧
      executeUnit releaseOnExit (call releaseOnExit limit) s.units root p.body none s.newUnit.2 =
        .ok answer.value s' := by
  rw [runProgram_apply] at h
  split at h
  · rename_i hunit
    cases h
    exact ⟨rfl, hunit⟩
  · cases h

end Programs

/-- **What a unit declares and answers.** A program is run in the frame `root` of any
store. Whether it succeeds or not, that frame then has its old names and, in order, those
of the `var` and `func` statements among the first ones that ended normally. If it
succeeds, these are the names that it answers with. If a `return` was executed, in
a block or not, the program comes to what its value comes to; else its value is that of
the expression at its end. -/
theorem units_declare_and_answer {s : Store} {root : FrameId} (hroot : root < s.frames.size)
    (limit : Nat) (p : Program) :
    let run := runProgram releaseOnExit limit root p
    let caller := call releaseOnExit limit
    let s₀ := s.newUnit.2
    let added := (p.body.take (completed caller s.units root p.body s₀)).filterMap Stmt.declared?
    (run.after s).names root = s.names root ++ added ∧
      (∀ answer s', run s = .ok answer s' → answer.declared = added) ∧
      match firstReturn? caller s.units root p.body s₀ with
      | some r => (run.answer s).map Evaluation.value = (r.answer caller).map some
      | none => ∀ answer s', run s = .ok answer s' →
          EndsWith caller s.units root p.body s₀ s' answer.value := by
  intro run caller s₀ added
  have hnames : (run.after s).names root = s.names root ++ added := by
    rw [after_runProgram, after_executeUnit]
    exact names_executeAll (affects_call limit) hroot
  obtain ⟨hreturn, hends⟩ :=
    executeUnit_of_decides (decides_executeAll caller s.units root p.body s₀)
  refine ⟨hnames, fun answer s' hs' => ?_, ?_⟩
  · rw [Eval.after_ok hs'] at hnames
    rw [(runProgram_ok hs').1, hnames, List.drop_left]
  · cases hfirst : firstReturn? caller s.units root p.body s₀ with
    | some r => exact (answer_runProgram limit root p s).trans (hreturn r hfirst)
    | none => exact fun answer s' hs' => hends hfirst answer.value s' (runProgram_ok hs').2

/-- A block with a name of its own returns in front of a declaration. -/
theorem units_declare_and_answer_block :
    let block : Stmt :=
      .block .start .start [.var .start "y" none, .ret .start (some (.identifier .start "x"))]
    let p : Program := ⟨.start, [.var .start "x" none, block, .var .start "z" none]⟩
    let s := (Session.bare ⟨0⟩).store
    let run := runProgram releaseOnExit 1 0 p
    0 < s.frames.size ∧ (run.after s).names 0 = ["x"] ∧
      (∀ answer s', run s = .ok answer s' → answer.declared = ["x"]) ∧
      (run.answer s).map Evaluation.value = .ok (some .undefined) := by
  intro block p s run
  have hroot : 0 < s.frames.size := by decide
  obtain ⟨hnames, hdeclared, hvalue⟩ := units_declare_and_answer hroot 1 p
  exact ⟨hroot, hnames, hdeclared, hvalue⟩

end ClosureCalc
