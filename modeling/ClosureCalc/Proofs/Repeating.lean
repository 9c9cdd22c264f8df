/-
Expressions that are evaluated again.

Evaluating an expression changes no frame that was there, so the second evaluation finds
what the first one found. It finds it in a store with more frames, and the frames that it
makes itself have other numbers. So the two come to the same up to a renaming of frames.

* `Store.Mirrors.later`: stores in which nothing that was there has changed go on to
  mirror each other.
* `Store.WellFormed.exists_mirrors_reached`: what can be reached from a frame mirrors
  itself, where no function that draws random numbers can be reached.
* `Store.Mirrors.names_chain`: frames that are renamed have the same names around them.
* `evaluation_repeats`: the second evaluation comes to the same as the first.
-/
import ClosureCalc.Proofs.Relocation

namespace ClosureCalc

/-- The frames of a set keep their numbers, and no others are renamed. -/
lemma Renaming.exists_keeping (K : Set FrameId) :
    ∃ ρ : Renaming, ∀ f f', f' ∈ ρ f ↔ f' = f ∧ f ∈ K := by
  classical
  refine ⟨PEquiv.ofSet K, fun f f' => ?_⟩
  rw [PEquiv.mem_ofSet_iff]
  constructor
  · rintro ⟨rfl, hK⟩
    exact ⟨rfl, hK⟩
  · rintro ⟨rfl, hK⟩
    exact ⟨rfl, hK⟩

namespace Store

variable {L : Likeness} {ρ : Renaming} {s s' t t' : Store} {f f' : FrameId}

/-- **Mirrored stores go on to mirror each other** where frames and slots are added and
none that was there is changed. -/
lemma Mirrors.later (h : s.Mirrors L ρ t) (hs : s.Extends ∅ s') (ht : t.Extends ∅ t')
    (hgenerator : L.draws → t'.generator = s'.generator) : s'.Mirrors L ρ t' where
  lt g g' hg := by
    obtain ⟨hlt, hlt'⟩ := h.lt g g' hg
    exact ⟨hlt.trans_le hs.frames_le, hlt'.trans_le ht.frames_le⟩
  outer g g' hg := by
    obtain ⟨hlt, hlt'⟩ := h.lt g g' hg
    rw [hs.outer g hlt, ht.outer g' hlt']
    exact h.outer g g' hg
  bindings g g' hg := by
    obtain ⟨hlt, hlt'⟩ := h.lt g g' hg
    rw [hs.kept g hlt (Set.notMem_empty g), ht.kept g' hlt' (Set.notMem_empty g')]
    exact (h.bindings g g' hg).imp fun _ _ hb => hb.later le_rfl hs ht
  generator := hgenerator

/-- **Frames that are renamed** lie within frames with the same names. -/
lemma Mirrors.names_chain (h : s.Mirrors L ρ t) (hf : f' ∈ ρ f) :
    (t.chain f').map t.names = (s.chain f).map s.names := by
  have hchain := h.chain hf
  generalize s.chain f = gs, t.chain f' = gs' at hchain
  induction hchain with
  | nil => rfl
  | cons hg _ ih => rw [List.map_cons, List.map_cons, h.names hg, ih]

/-- **What can be reached from a frame mirrors itself.** Functions that draw random
numbers must not be among it. -/
lemma WellFormed.exists_mirrors_reached (hs : s.WellFormed) (hf : f < s.frames.size)
    (hdraws : ∀ b home, s.Live f none (.builtin b home) → ¬ b.Draws) :
    ∃ ρ : Renaming, f ∈ ρ f ∧ s.Mirrors (.same Eq) ρ s := by
  obtain ⟨ρ, hρ⟩ := Renaming.exists_keeping {g | s.Reach f g}
  refine ⟨ρ, (hρ f f).2 ⟨rfl, .refl⟩, ?_⟩
  refine Store.mirrors_self (fun _ => rfl) (fun _ _ _ _ => rfl) hρ (fun g hg => ?_)
    (fun g hg k hp => ?_) (fun g _ => hs.slot_lt g) fun g hg b hb c home hv hc => ?_
  · exact hg.mem (K := {g | g < s.frames.size}) (fun _ _ _ hp => hs.lt_of_points hp) hf
  · exact Relation.ReflTransGen.tail hg hp
  · exact hdraws c home (.inl ⟨g, hg, b, hb, hv.symm⟩) hc

end Store

/-- **An expression can be evaluated again.** Let no function that draws random numbers be
live in a frame of a well-formed store, and evaluate an expression there. If the
evaluation stops, it stops for the same reason when it is done again in the store that
it left. If it comes to a value, it comes to a value again, the same up to a renaming of
frames. Then a function has the same declaration again, and was declared within frames
with the same names, which stand for values that are the same in this way. -/
theorem evaluation_repeats {s : Store} (hs : s.WellFormed) {f : FrameId}
    (hf : f < s.frames.size) (hdraws : ∀ b home, s.Live f none (.builtin b home) → ¬ b.Draws)
    (e : Expr) (limit : Nat) :
    let run := evaluate (call releaseOnExit limit) f e
    (∀ stop s', run s = .error stop s' → ∃ s'', run s' = .error stop s'') ∧
      ∀ v s', run s = .ok v s' → ∃ v' s'', ∃ ρ : Renaming, run s' = .ok v' s'' ∧
        v.Mirrors (.same Eq) ρ v' ∧ s'.Mirrors (.same Eq) ρ s'' ∧
        ∀ decl closure, v = .function decl closure → ∃ closure', v' = .function decl closure' ∧
          (s''.chain closure').map s''.names = (s'.chain closure).map s'.names := by
  intro run
  obtain ⟨ρ, hroot, hself⟩ := hs.exists_mirrors_reached hf hdraws
  -- the first run has changed nothing that the second one can reach
  have hgrows : s.Extends ∅ (run.after s) :=
    (affects_evaluate (affects_call limit) 0 f e s).grows
  have hst : s.Mirrors (.same Eq) ρ (run.after s) :=
    hself.later (.refl ∅ s) hgrows False.elim
  obtain ⟨ρ', -, hend⟩ := mirrored_evaluate (Likeness.sound_same Eq)
    (mirrored_call (Likeness.sound_same Eq) limit) (rfl : e = e) hroot s (run.after s) hst
  refine ⟨fun stop s' hrun => ?_, fun v s' hrun => ?_⟩
  · rw [Eval.after_error hrun] at hend
    change Eval.EndMirrored _ ρ' _ (run s) (run s') at hend
    rw [hrun] at hend
    generalize run s' = again at hend ⊢
    cases hend with
    | @error e e' _ s'' _ he => exact ⟨s'', by rw [he.eq]⟩
    | @depth _ s'' _ => exact ⟨s'', rfl⟩
  · rw [Eval.after_ok hrun] at hend
    change Eval.EndMirrored _ ρ' _ (run s) (run s') at hend
    rw [hrun] at hend
    generalize run s' = again at hend ⊢
    cases hend with
    | @ok _ v' _ s'' hst' hv =>
      refine ⟨v', s'', ρ', rfl, hv, hst', ?_⟩
      rintro decl closure rfl
      cases hv with
      | function hdecl hclosure =>
        cases hdecl
        exact ⟨_, rfl, hst'.names_chain hclosure⟩

/-- A function that returns a closure over its argument, called twice. Each call leaves a
frame behind, and the second one has another number. -/
theorem evaluation_repeats_closure :
    let body : List Stmt := [.ret .start (some (.identifier .start "n"))]
    let make : Declaration := ⟨0, .start, "make", ["n"],
      [.func .start "keep" [] .start body, .ret .start (some (.identifier .start "keep"))]⟩
    let keep : Declaration := ⟨0, .start, "keep", [], body⟩
    let s := (Session.bare ⟨0⟩).store.bind 0 "make" (.function make 0)
    let run := evaluate (call releaseOnExit 2) 0
      (.call .start (.identifier .start "make") [.identifier .start "make"])
    s.WellFormed ∧ 0 < s.frames.size ∧
      (∀ b home, s.Live 0 none (.builtin b home) → ¬ b.Draws) ∧
      ∃ s' closure s'', run s = .ok (.function keep 1) s' ∧
        run s' = .ok (.function keep closure) s'' ∧
        (s''.chain closure).map s''.names = [["n", "keep"], ["make"]] := by
  intro body make keep s run
  have hs : s.WellFormed := by
    refine (Session.wellFormed_bare ⟨0⟩).store.bind (fun decl closure h => ?_) 0 "make"
    obtain ⟨-, rfl⟩ := Value.function.inj h
    decide
  have hf : 0 < s.frames.size := by decide
  have hslot : ∀ i b home, s.slot i ≠ .builtin b home := by
    intro i b home
    rw [Store.slot_bind]
    split <;> simp [Session.bare, Store.newRoot, Store.addFrame, Store.empty, Store.slot]
  have hdraws : ∀ b home, s.Live 0 none (.builtin b home) → ¬ b.Draws := by
    rintro b home (⟨g, -, binding, -, hv⟩ | ⟨v, hv, -⟩)
    · exact absurd hv.symm (hslot _ b home)
    · cases hv
  obtain ⟨s', hrun⟩ : ∃ s', run s = .ok (.function keep 1) s' := ⟨_, rfl⟩
  have hnames : (s'.chain 1).map s'.names = [["n", "keep"], ["make"]] := by
    cases hrun
    rfl
  obtain ⟨v', s'', ρ, hagain, -, -, hclosure⟩ :=
    (evaluation_repeats hs hf hdraws _ 2).2 _ s' hrun
  obtain ⟨closure, rfl, hsame⟩ := hclosure keep 1 rfl
  exact ⟨hs, hf, hdraws, s', closure, s'', hrun, hagain, hsame.trans hnames⟩

end ClosureCalc
