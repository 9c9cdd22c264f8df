/-
Bindings once made.

* `Store.Unchanged`: a frame with its names, their slots and the values in
  these is the same in both stores; `Store.ExtendedBy`: the same, except for
  one more name at the end.
* `execute_declaring`: a declaration evaluates what it has to and then either
  binds its name or fails.
* `bindings_survive`: evaluation and calls leave every frame unchanged, and a
  statement leaves every other frame unchanged and adds exactly the name that
  it declares, if it succeeds, to its own.
-/
import ClosureCalc.Proofs.Affects
import ClosureCalc.Proofs.WellFormed

namespace ClosureCalc

namespace Store

/-- **A frame is unchanged**: the frames around it, its names in their order,
the slots of its names and the values in these slots are the same. -/
structure Unchanged (s s' : Store) (g : FrameId) : Prop where
  outer : (s'.frame g).outer = (s.frame g).outer
  names : s'.names g = s.names g
  slotIn : ∀ name, s'.slotIn name g = s.slotIn name g
  value : ∀ name i, s.slotIn name g = some i → s'.slot i = s.slot i

/-- **A frame is extended by one name**, which it did not have, at the end; all
else about it is the same. -/
structure ExtendedBy (s s' : Store) (g : FrameId) (name : String) : Prop where
  outer : (s'.frame g).outer = (s.frame g).outer
  names : s'.names g = s.names g ++ [name]
  new : name ∉ s.names g
  slotIn : ∀ other, other ≠ name → s'.slotIn other g = s.slotIn other g
  value : ∀ other i, s.slotIn other g = some i → s'.slot i = s.slot i

variable {A : Set FrameId} {s s' s'' : Store}

/-- The slot of a name is there. -/
lemma WellFormed.slotIn_lt (hs : s.WellFormed) {g : FrameId} {name : String} {i : SlotId}
    (h : s.slotIn name g = some i) : i < s.slots.size :=
  hs.slot_lt g (name, i) (mem_bindings_of_slotIn h)

lemma Extends.unchanged (h : s.Extends A s') (hs : s.WellFormed) {g : FrameId}
    (hg : g < s.frames.size) (hA : g ∉ A) : s.Unchanged s' g := by
  have hf := h.frame_eq hg hA
  refine ⟨by rw [hf], by rw [names, hf, names], fun name => by rw [slotIn, hf, slotIn], ?_⟩
  exact fun name i hi => h.slot i (hs.slotIn_lt hi)

/-- A name that is declared after nothing else changed is the one new name. -/
lemma Extends.extendedBy (h : s.Extends ∅ s') (hs : s.WellFormed) {f : FrameId}
    (hf : f < s.frames.size) {name : String} (hc : s'.canDeclare f name = true) (v : Value) :
    s.ExtendedBy (s'.bind f name v) f name := by
  have hsame := h.frame_eq hf (Set.notMem_empty f)
  have hnames : s'.names f = s.names f := by rw [names, hsame, names]
  have hf' := hf.trans_le h.frames_le
  have hbind : (s'.bind f name v).frame f =
      ⟨(s.frame f).outer, (s.frame f).bindings ++ [(name, s'.slots.size)]⟩ := by
    rw [frame_bind, if_pos ⟨rfl, hf'⟩, hsame]
  refine ⟨by rw [hbind], by rw [names_bind hf', hnames], ?_, fun other hne => ?_,
    fun other i hi => ?_⟩
  · rw [← hnames, ← canDeclare_iff, hc]
  · have hb : (other == name) = false := by simp [hne]
    rw [slotIn, slotIn, hbind, List.lookup_append, List.lookup_cons, hb]
    exact Option.or_none
  · have hlt := hs.slotIn_lt hi
    rw [slot_bind, if_neg (hlt.trans_le h.slots_le).ne, h.slot i hlt]

end Store

section Declaration

variable {caller : Caller} {calls : CallRecord} {s : Store}

/-- **A declaration**: what it has to evaluate changes no frame; then its name
is bound, or the statement fails without another change. -/
lemma execute_declaring (hcall : ∀ v args p, (caller v args p).Affects ∅ (calls v args p))
    (unit : Nat) (f : FrameId) {st : Stmt} {name : String} (h : st.declared? = some name) :
    (∃ s₁ v, s.Extends ∅ s₁ ∧ s₁.canDeclare f name = true ∧
        execute releaseOnExit caller unit f st s = .ok .normal (s₁.bind f name v)) ∨
      ∃ s₁ stop, s.Extends ∅ s₁ ∧
        execute releaseOnExit caller unit f st s = .error stop s₁ := by
  cases st with
  | var p name' init =>
    cases h
    rw [execute]
    have hinit := (affects_evaluateOption hcall unit f init s).grows
    rcases he : evaluateOption caller f init s with ⟨v, s₁⟩ | ⟨stop, s₁⟩
    · rw [Eval.after_ok he] at hinit
      rw [Eval.bind_ok he]
      rcases declare_cases f name v p s₁ with ⟨hc, hd⟩ | hd
      · exact .inl ⟨s₁, v, hinit, hc, Eval.bind_ok hd _⟩
      · exact .inr ⟨s₁, _, hinit, Eval.bind_error hd _⟩
    · rw [Eval.after_error he] at hinit
      exact .inr ⟨s₁, stop, hinit, Eval.bind_error he _⟩
  | func p name' params bodyPos body =>
    cases h
    rw [execute]
    rcases declare_cases f name (.function ⟨unit, p, name, params, body⟩ f) p s with
      ⟨hc, hd⟩ | hd
    · exact .inl ⟨s, _, .refl ∅ s, hc, Eval.bind_ok hd _⟩
    · exact .inr ⟨s, _, .refl ∅ s, Eval.bind_error hd _⟩
  | ret p value => cases h
  | block p body => cases h
  | expr e => cases h

end Declaration

/-- **Evaluation never changes an existing binding.** In a well-formed store,
evaluating an expression and calling a value leave every frame unchanged,
whether they end in a value or early. Executing a statement in a frame leaves
every other frame unchanged; the frame itself gains the name that the
statement declares, if it declares one and succeeds, and is unchanged in all
other cases. -/
theorem bindings_survive {s : Store} (hs : s.WellFormed) (n : Nat) :
    (∀ f e, ∀ g < s.frames.size,
        s.Unchanged ((evaluate (call releaseOnExit n) f e).after s) g) ∧
      (∀ callee args p, ∀ g < s.frames.size,
        s.Unchanged ((call releaseOnExit n callee args p).after s) g) ∧
      ∀ unit st, ∀ f < s.frames.size,
        (∀ g < s.frames.size, g ≠ f →
          s.Unchanged ((execute releaseOnExit (call releaseOnExit n) unit f st).after s) g) ∧
        match st.declared?, execute releaseOnExit (call releaseOnExit n) unit f st s with
        | some name, .ok _ s' => s.ExtendedBy s' f name
        | _, .ok _ s' => s.Unchanged s' f
        | _, .error _ s' => s.Unchanged s' f := by
  refine ⟨fun f e g hg => ?_, fun callee args p g hg => ?_, fun unit st f hf =>
    ⟨fun g hg hne => ?_, ?_⟩⟩
  · have h := affects_evaluate (affects_call n) 0 f e s
    exact h.grows.unchanged hs hg (Set.notMem_empty g)
  · have h := affects_call n callee args p s
    exact h.grows.unchanged hs hg (Set.notMem_empty g)
  · have h := (affects_execute (affects_call n) unit f st).mono (st.changes_subset f) s
    exact h.grows.unchanged hs hg (by simpa using hne)
  · cases hd : st.declared? with
    | none =>
      have h := affects_execute (affects_call n) unit f st s
      rw [Stmt.changes_of_declared?_eq_none hd] at h
      have hsame := h.grows.unchanged hs hf (Set.notMem_empty f)
      rcases he : execute releaseOnExit (call releaseOnExit n) unit f st s with
        ⟨flow, s'⟩ | ⟨stop, s'⟩
      · rwa [Eval.after_ok he] at hsame
      · rwa [Eval.after_error he] at hsame
    | some name =>
      rcases execute_declaring (s := s) (affects_call n) unit f hd with
        ⟨s₁, v, h, hc, he⟩ | ⟨s₁, stop, h, he⟩
      · rw [he]
        exact h.extendedBy hs hf hc v
      · rw [he]
        exact h.unchanged hs hf (Set.notMem_empty f)

/-- A root frame that declares `func f(g) { return g }`, in which `f(f)` is
evaluated. -/
theorem bindings_survive_call :
    let decl : Declaration :=
      ⟨0, .start, "f", ["g"], [.ret .start (some (.identifier .start "g"))]⟩
    let s := (Session.bare ⟨0⟩).store.bind 0 "f" (.function decl 0)
    s.WellFormed ∧
      s.Unchanged ((evaluate (call releaseOnExit 1) 0
        (.call .start (.identifier .start "f") [.identifier .start "f"])).after s) 0 := by
  intro decl s
  have hs : s.WellFormed := by
    refine (Session.wellFormed_bare ⟨0⟩).store.bind (fun decl closure h => ?_) 0 "f"
    obtain ⟨-, rfl⟩ := Value.function.inj h
    decide
  exact ⟨hs, (bindings_survive hs 1).1 0 _ 0 (by decide)⟩

end ClosureCalc
